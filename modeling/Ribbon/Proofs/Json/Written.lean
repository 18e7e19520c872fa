import Ribbon.Proofs.Json.Single
import Ribbon.Proofs.Json.Values

/-!
# Written values are read back

What is written for a value is one of the texts that are read as the value, without any blanks. So
written strings, counts and finite numbers are read back, and lists and objects are if their items and
members are.

## Main results

* `Ribbon.Json.restores_string`, `Ribbon.Json.restores_count`, `Ribbon.Json.restores_single` —
  scalars.
* `Ribbon.Json.restores_singles`, `Ribbon.Json.restores_list` — lists.
* `Ribbon.Json.Fills.members_separated` — objects.
-/

set_option relaxedAutoImplicit false
set_option autoImplicit false

namespace Ribbon.Json

variable {α : Type}

/-! ## Scalars -/

/-- Any string is read back. -/
theorem restores_string (s : String) : Restores stringValue (writeString s) s :=
  (stringText_writeString s).restores

/-- The written form of a count. -/
def Numeral.ofCount (n : ℕ) : Numeral := ⟨false, Decimal.digits n, [], none⟩

/-- The written form of a count is its text. -/
lemma Numeral.text_ofCount (n : ℕ) : (Numeral.ofCount n).text = writeCount n := by
  simp [Numeral.text, Numeral.signText, Numeral.fractionText, Numeral.exponentText,
    Numeral.ofCount, writeCount]

/-- The digits of a count are a written number. -/
lemma Numeral.wellFormed_ofCount (n : ℕ) : (Numeral.ofCount n).WellFormed where
  whole_ne_nil := Decimal.digits_ne_nil n
  isDigit_whole _ := Decimal.isDigit_of_mem_digits
  length_whole hzero := by
    rcases n.eq_zero_or_pos with rfl | hn
    · rfl
    · exact absurd hzero (Decimal.head?_digits_ne_zero hn)
  isDigit_fraction := by simp [Numeral.ofCount]
  exponent_ne_nil := by simp [Numeral.ofCount]
  isDigit_exponent := by simp [Numeral.ofCount]

/-- A count that fits into 64 bits is written as the number that it is. -/
lemma numberText_writeCount {n : ℕ} (hn : n < UInt64.size) :
    NumberText (.integer n) (writeCount n) := by
  have hcoefficient : (Numeral.ofCount n).coefficient = n := by
    simp [Numeral.coefficient, Numeral.ofCount]
  have hwhole : (Numeral.ofCount n).isWhole = true := rfl
  have hpositive : (Numeral.ofCount n).negative = false := rfl
  have hinteger : (Numeral.ofCount n).toInteger? = some (n : ℤ) := by
    rw [Numeral.toInteger?, hwhole, hpositive, hcoefficient]
    simp [hn]
  have hvalue : (Numeral.ofCount n).value? = some (.integer n) := by
    rw [Numeral.value?, hinteger]
  rw [← Numeral.text_ofCount]
  exact .numeral (Numeral.wellFormed_ofCount n).numeralText hvalue

/-- A count within its bound is read back. -/
theorem restores_count (wanted : Wanted) {n bound : ℕ} (hn : n < bound) (hbound : bound ≤ UInt64.size) :
    Restores (countBelow wanted bound) (writeCount n) n :=
  (numberText_writeCount (hn.trans_le hbound)).restores wanted hn

/-- Any finite number is read back. -/
theorem restores_single {x : Float32} (h : x.isFinite = true) :
    Restores singleValue (writeSingle x) x :=
  (singleText_writeSingle h).restores

/-! ## Lists -/

/-- Entries are written with nothing but commas between them. -/
lemma enclosed_separated {β : Type} (b : Bracket) {entry : β → List Char → Prop} {xs : List β}
    {texts : List (List Char)} (h : List.Forall₂ entry xs texts) :
    Enclosed b entry xs (b.opening :: (separated texts ++ [b.close])) := by
  cases h with
  | nil => exact .empty isBlanks_nil
  | @cons x text xs texts head tail =>
    refine .filled ?_
    induction tail generalizing x text with
    | nil =>
      rw [separated, List.intercalate_singleton]
      exact .one head
    | @cons next nextText xs texts hnext _ ih =>
      rw [separated, List.intercalate_cons_cons, ← separated, List.append_assoc,
        List.singleton_append]
      exact .more head (ih hnext)

/-- Items are written without blanks. -/
lemma itemText_self (value : List Char) : ItemText value value := by
  have htext : ItemText value ([] ++ (value ++ [])) := .spaced isBlanks_nil isBlanks_nil
  simpa using htext

/-- **A list is read back** when its items are. -/
theorem restores_list {item : List Char → Except Fault (Parsed α)} {texts : List (List Char)}
    {xs : List α} (h : List.Forall₂ (Restores item) texts xs) :
    Restores (listValue item) (writeList texts) xs :=
  (enclosed_separated .list (List.forall₂_same.2 fun t _ => itemText_self t)).restores_list h

/-- **A tuple of finite numbers is read back.** -/
theorem restores_singles {xs : List Float32} (h : ∀ x ∈ xs, x.isFinite = true) :
    Restores (tupleValue xs.length) (writeSingles xs) xs := by
  have hnumbers : List.Forall₂ (Restores singleValue) (xs.map writeSingle) xs := by
    rw [List.forall₂_map_left_iff, List.forall₂_same]
    exact fun x hx => restores_single (h x hx)
  exact (enclosed_separated .list (List.forall₂_same.2 fun t _ => itemText_self t)).restores_tuple
    hnumbers

/-! ## Objects -/

section

variable {σ : Type} {member : String → σ → List Char → Except Fault (Parsed σ)}

/-- The written form of members. -/
def writeMembers (ms : List (String × List Char)) : List (List Char) :=
  ms.map fun m => writeMember m.1 m.2

/-- Any reader of members takes written members. -/
lemma takesEntries_writeMember :
    TakesEntries member fun m text => text = writeMember m.1 m.2 := by
  rintro name value _ start next rfl hmember first lead rest fuel hlead hrest
  have hname := hlead.nextName?_append isBlanks_nil (charsText_flatMap_writeChar name.toList)
    (':' :: (value ++ rest))
  refine ⟨[], isBlanks_nil, ?_⟩
  have hmembers := membersFrom_member hname (hmember hrest) fuel
  simpa [writeMember, writeString] using hmembers

/-- **The members of a written object are read** one by one. -/
theorem Fills.members_separated {ms : List (String × List Char)} {start last : σ}
    (h : Fills member ms start last) (rest : List Char) :
    members member start (separated (writeMembers ms) ++ '\x7d' :: rest) = .ok (last, rest) := by
  have htext : Enclosed .object (fun m text => text = writeMember m.1 m.2) ms
      ('\x7b' :: (separated (writeMembers ms) ++ ['\x7d'])) :=
    enclosed_separated .object (List.forall₂_map_right_iff.2 (List.forall₂_same.2 fun _ _ => rfl))
  obtain ⟨inner, hinner, hread⟩ := h.members_enclosed takesEntries_writeMember htext
  obtain rfl := List.tail_eq_of_cons_eq hinner
  simpa using hread rest

end

end Ribbon.Json
