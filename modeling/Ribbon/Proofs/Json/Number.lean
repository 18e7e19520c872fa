import Mathlib.Data.List.Basic
import Mathlib.Tactic.ByContra
import Ribbon.Json.Reader

/-!
# Numbers are read, however they are written

The parts of a number are found in its text, whatever follows it, unless that could be a part of the
number. A number is written part by part, and only its exponent may be written in several ways.

## Main definitions

* `Ribbon.Json.Numeral.text` — the text of a number.
* `Ribbon.Json.Numeral.WellFormed` — the numbers that can be written.
* `Ribbon.Json.ExponentText`, `Ribbon.Json.NumeralText` — the ways to write a number part by part.
* `Ribbon.Json.NumberText`, `Ribbon.Json.SingleText` — the ways to write a number with a given value.
* `Ribbon.Json.EndsNumber` — what may follow a number.

## Main results

* `Ribbon.Json.NumeralText.readNumeral_append` — a number is read from its text.
* `Ribbon.Json.NumberText.numberValue_append`, `Ribbon.Json.SingleText.singleValue_append` — it is found
  as the next value.
-/

set_option relaxedAutoImplicit false
set_option autoImplicit false

namespace Ribbon.Json

namespace Numeral

variable (n : Numeral)

/-- The text of the sign. -/
def signText : List Char := if n.negative then ['-'] else []

/-- The text of the fraction; without one there is no point. -/
def fractionText : List Char := if n.fraction.isEmpty then [] else '.' :: n.fraction

/-- The text of the exponent, whose sign is always shown. -/
def exponentText : List Char :=
  match n.exponent with
  | none => []
  | some (negative, ds) => 'e' :: (if negative then '-' else '+') :: ds

/-- The text of a number. -/
def text : List Char := n.signText ++ (n.whole ++ (n.fractionText ++ n.exponentText))

/-- All parts of a number are rows of digits, and only the fraction may be empty. -/
structure WellFormed : Prop where
  whole_ne_nil : n.whole ≠ []
  isDigit_whole : ∀ c ∈ n.whole, c.isDigit = true
  /-- A zero in front stands alone. -/
  length_whole : n.whole.head? = some '0' → n.whole.length = 1
  isDigit_fraction : ∀ c ∈ n.fraction, c.isDigit = true
  exponent_ne_nil : ∀ x ∈ n.exponent, x.2 ≠ []
  isDigit_exponent : ∀ x ∈ n.exponent, ∀ c ∈ x.2, c.isDigit = true

end Numeral

/-- The ways to write an exponent: with a small or a capital letter, and without a sign or with one. -/
inductive ExponentText : Option (Bool × List Char) → List Char → Prop
  | absent : ExponentText none []
  | unsigned {mark : Char} {ds : List Char} (hmark : mark = 'e' ∨ mark = 'E') :
      ExponentText (some (false, ds)) (mark :: ds)
  | signed {mark : Char} {negative : Bool} {ds : List Char} (hmark : mark = 'e' ∨ mark = 'E') :
      ExponentText (some (negative, ds)) (mark :: (if negative then '-' else '+') :: ds)

/-- The ways to write a number. -/
inductive NumeralText (n : Numeral) : List Char → Prop
  | parts {text : List Char} (wellFormed : n.WellFormed) (hexponent : ExponentText n.exponent text) :
      NumeralText n (n.signText ++ (n.whole ++ (n.fractionText ++ text)))

/-- The ways to write a number with a given value. A number beyond the doubles has none. -/
inductive NumberText (value : Number) : List Char → Prop
  | numeral {n : Numeral} {text : List Char} (htext : NumeralText n text)
      (hvalue : n.value? = some value) : NumberText value text

/-- The ways to write a single-precision number: any number that is rounded to it. -/
inductive SingleText (x : Float32) : List Char → Prop
  | number {value : Number} {text : List Char} (htext : NumberText value text)
      (hx : value.toSingle = x) : SingleText x text

/-- The text does not go on with what could be a part of a number. -/
def EndsNumber (rest : List Char) : Prop :=
  ∀ c ∈ rest.head?, c.isDigit = false ∧ c ≠ '.' ∧ c ≠ 'e' ∧ c ≠ 'E'

variable {ds rest : List Char} {ended : Fault}

/-- A row of digits is read back. -/
lemma readDigits_append (hne : ds ≠ []) (hds : ∀ c ∈ ds, c.isDigit = true)
    (hrest : ∀ c ∈ rest.head?, c.isDigit = false) :
    readDigits ended (ds ++ rest) = .ok (ds, rest) := by
  have htake : (ds ++ rest).takeWhile Char.isDigit = ds := by
    rw [List.takeWhile_append_of_pos hds]
    cases rest <;> simp_all
  have hdrop : (ds ++ rest).dropWhile Char.isDigit = rest := by
    rw [List.dropWhile_append_of_pos hds]
    cases rest <;> simp_all
  obtain ⟨d, ds, rfl⟩ := List.exists_cons_of_ne_nil hne
  have hd : d.isDigit = true := hds d List.mem_cons_self
  rw [List.cons_append] at htake hdrop ⊢
  rw [readDigits, if_pos hd, htake, hdrop]

/-! ## The parts of a number -/

namespace Numeral

variable {n : Numeral} (h : n.WellFormed)

include h

/-- No sign begins the digits of a number. -/
lemma WellFormed.readSign_append :
    readSign (n.signText ++ (n.whole ++ rest)) = (n.negative, n.whole ++ rest) := by
  obtain ⟨c, cs, hcs⟩ := List.exists_cons_of_ne_nil h.whole_ne_nil
  have hc : c.isDigit = true := h.isDigit_whole c (hcs ▸ List.mem_cons_self)
  have hminus : c ≠ '-' := by
    rintro rfl
    exact absurd hc (by decide)
  simp only [signText, hcs]
  cases n.negative <;> simp [readSign, hminus]

/-- The digits before the point are read. -/
lemma WellFormed.readWhole_append (hrest : ∀ c ∈ rest.head?, c.isDigit = false) :
    readWhole ended (n.whole ++ rest) = .ok (n.whole, rest) := by
  have hzero : ¬(n.whole.head? = some '0' ∧ 1 < n.whole.length) := by
    rintro ⟨hhead, hlong⟩
    exact (Nat.ne_of_gt hlong) (h.length_whole hhead)
  rw [readWhole, readDigits_append h.whole_ne_nil h.isDigit_whole hrest]
  exact if_neg hzero

/-- The digits behind the point are read, if there are any. -/
lemma WellFormed.readFraction_append (hrest : ∀ c ∈ rest.head?, c.isDigit = false ∧ c ≠ '.') :
    readFraction ended (n.fractionText ++ rest) = .ok (n.fraction, rest) := by
  rw [fractionText]
  split_ifs with hempty
  · rw [List.isEmpty_iff.1 hempty, List.nil_append]
    cases rest with
    | nil => rfl
    | cons c cs =>
      have hpoint : c ≠ '.' := (hrest c rfl).2
      rw [readFraction]
      simp [hpoint]
  · exact readDigits_append (by simpa using hempty) h.isDigit_fraction fun c hc => (hrest c hc).1

/-- The first character of a number is a sign or a digit. -/
lemma WellFormed.exists_cons (text : List Char) :
    ∃ c cs, n.signText ++ (n.whole ++ text) = c :: cs ∧ (c = '-' ∨ c.isDigit = true) := by
  obtain ⟨c, cs, hcs⟩ := List.exists_cons_of_ne_nil h.whole_ne_nil
  rw [signText, hcs]
  split_ifs
  · exact ⟨_, _, rfl, .inl rfl⟩
  · exact ⟨_, _, rfl, .inr (h.isDigit_whole c (hcs ▸ List.mem_cons_self))⟩

end Numeral

/-! ## Exponents -/

/-- Digits have no sign in front of them. -/
lemma readExponentSign_append (hne : ds ≠ []) (hds : ∀ c ∈ ds, c.isDigit = true) :
    readExponentSign (ds ++ rest) = (false, ds ++ rest) := by
  obtain ⟨d, ds, rfl⟩ := List.exists_cons_of_ne_nil hne
  have hd : d.isDigit = true := hds d List.mem_cons_self
  rw [List.cons_append, readExponentSign] <;>
  · rintro _ ⟨⟩
    exact absurd hd (by decide)

section

variable {exponent : Option (Bool × List Char)} {text : List Char} (h : ExponentText exponent text)

include h

/-- An exponent is read, however it is written. -/
lemma ExponentText.readExponent_append (hne : ∀ x ∈ exponent, x.2 ≠ [])
    (hdigits : ∀ x ∈ exponent, ∀ c ∈ x.2, c.isDigit = true) (hrest : EndsNumber rest) :
    readExponent ended (text ++ rest) = .ok (exponent, rest) := by
  cases h with
  | absent =>
    cases rest with
    | nil => rfl
    | cons c cs =>
      obtain ⟨-, -, hlower, hupper⟩ := hrest c rfl
      exact if_neg (by simp [hlower, hupper])
  | @unsigned mark ds hmark =>
    have hread : readDigits ended (ds ++ rest) = .ok (ds, rest) :=
      readDigits_append (hne _ rfl) (hdigits _ rfl) fun c hc => (hrest c hc).1
    have hsign : readExponentSign (ds ++ rest) = (false, ds ++ rest) :=
      readExponentSign_append (hne _ rfl) (hdigits _ rfl)
    simp [readExponent, hmark, hsign, hread]
  | @signed mark negative ds hmark =>
    have hread : readDigits ended (ds ++ rest) = .ok (ds, rest) :=
      readDigits_append (hne _ rfl) (hdigits _ rfl) fun c hc => (hrest c hc).1
    cases negative <;> simp [readExponent, hmark, readExponentSign, hread]

/-- Neither a digit nor a point begins an exponent. -/
lemma ExponentText.head_append (hrest : EndsNumber rest) :
    ∀ c ∈ (text ++ rest).head?, c.isDigit = false ∧ c ≠ '.' := by
  have hletter {mark : Char} (hmark : mark = 'e' ∨ mark = 'E') :
      mark.isDigit = false ∧ mark ≠ '.' := by
    rcases hmark with rfl | rfl <;> decide
  intro c hc
  cases h with
  | absent => exact ⟨(hrest c hc).1, (hrest c hc).2.1⟩
  | unsigned hmark =>
    obtain rfl : _ = c := Option.some.inj hc
    exact hletter hmark
  | signed hmark =>
    obtain rfl : _ = c := Option.some.inj hc
    exact hletter hmark

end

/-! ## Numbers -/

variable {n : Numeral} {text : List Char}

/-- The text of a number is one of the ways to write it. -/
lemma Numeral.WellFormed.numeralText (h : n.WellFormed) : NumeralText n n.text := by
  refine .parts h ?_
  rw [Numeral.exponentText]
  cases n.exponent with
  | none => exact .absent
  | some x => exact .signed (.inl rfl)

/-- A number with a point or an exponent has its double as its value, unless that is infinite. -/
lemma Numeral.value?_of_isInf_eq_false (hwhole : n.isWhole = false)
    (hfinite : n.toDouble.isInf = false) : n.value? = some (.real n.toDouble) := by
  have hinteger : n.toInteger? = none := by simp [toInteger?, hwhole]
  simp [value?, hinteger, hfinite]

/-- The first character of a written number is a sign or a digit. -/
lemma NumeralText.exists_cons (h : NumeralText n text) :
    ∃ c cs, text = c :: cs ∧ (c = '-' ∨ c.isDigit = true) := by
  cases h with
  | parts hn => exact hn.exists_cons _

variable (ended) in
/-- **A number is read**, however it is written. -/
theorem NumeralText.readNumeral_append (h : NumeralText n text) (hrest : EndsNumber rest) :
    readNumeral ended (text ++ rest) = .ok (n, rest) := by
  cases h with
  | @parts text hn htext =>
    have hexponent := htext.head_append hrest
    have hfraction : ∀ c ∈ (n.fractionText ++ (text ++ rest)).head?, c.isDigit = false := by
      intro c hc
      rw [Numeral.fractionText] at hc
      split_ifs at hc with hempty
      · exact (hexponent c hc).1
      · obtain rfl : '.' = c := by simpa using hc
        decide
    simp only [List.append_assoc]
    rw [readNumeral, hn.readSign_append]
    simp only [hn.readWhole_append hfraction, hn.readFraction_append hexponent,
      htext.readExponent_append hn.exponent_ne_nil hn.isDigit_exponent hrest, ok_bind]
    rfl

/-- A sign or a digit is neither a blank nor a bracket. -/
lemma isBlank_of_isDigit {c : Char} (h : c = '-' ∨ c.isDigit = true) :
    isBlank c = false ∧ c ≠ ']' := by
  by_contra hc
  simp only [isBlank, Bool.or_eq_false_iff, decide_eq_false_iff_not, not_and_or, not_not] at hc
  obtain (((rfl | rfl) | rfl) | rfl) | rfl := hc <;> exact absurd h (by decide)

/-- A number begins with neither. -/
lemma NumberText.exists_cons {value : Number} (h : NumberText value text) :
    ∃ c cs, text = c :: cs ∧ isBlank c = false ∧ c ≠ ']' := by
  obtain ⟨htext, -⟩ := h
  obtain ⟨c, cs, rfl, hc⟩ := htext.exists_cons
  exact ⟨c, cs, rfl, isBlank_of_isDigit hc⟩

/-- **A number is found as the next value**, however it is written. -/
theorem NumberText.numberValue_append {value : Number} (h : NumberText value text) (wanted : Wanted)
    (hrest : EndsNumber rest) : numberValue wanted (text ++ rest) = .ok (value, rest) := by
  obtain ⟨htext, hvalue⟩ := h
  have hread := htext.readNumeral_append .truncated hrest
  obtain ⟨c, cs, rfl, hc⟩ := htext.exists_cons
  rw [List.cons_append] at hread ⊢
  rw [numberValue, token_cons (isBlank_of_isDigit hc).1]
  simp only [ok_bind, if_pos hc, readNumber, hread, hvalue]

/-- A single-precision number is found as the next value. -/
theorem SingleText.singleValue_append {x : Float32} (h : SingleText x text) (hrest : EndsNumber rest) :
    singleValue (text ++ rest) = .ok (x, rest) := by
  obtain ⟨htext, rfl⟩ := h
  rw [singleValue, htext.numberValue_append .number hrest]
  rfl

end Ribbon.Json
