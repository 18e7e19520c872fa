import Mathlib.Data.List.Forall2
import Ribbon.Proofs.Json.Enclosed

/-!
# Values are read, however they are written

Every reader of typed values reads a value from any of the texts that it may be written as, whatever
follows, as long as it can follow a value. Lists and objects are read when their items and members are,
in whatever layout.

## Main definitions

* `Ribbon.Json.Restores` — a reader reads a value from a text.
* `Ribbon.Json.Fills` — members take the state of a reader of members to another.
* `Ribbon.Json.TakesRound`, `Ribbon.Json.TakesEntries` — an entry of an object is one round of the
  reader.
* `Ribbon.Json.IgnoresBlanks` — readers that do not mind blanks around a colon.
* `Ribbon.Json.ListText` — the ways to write a list of values.

## Main results

* `Ribbon.Json.StringText.restores`, `Ribbon.Json.NumberText.restores`,
  `Ribbon.Json.SingleText.restores` — scalars.
* `Ribbon.Json.Enclosed.restores_list`, `Ribbon.Json.Enclosed.restores_tuple` — lists.
* `Ribbon.Json.Fills.members_enclosed` — objects.
* `Ribbon.Json.Restores.document` — whole texts.
-/

set_option relaxedAutoImplicit false
set_option autoImplicit false

namespace Ribbon.Json

variable {α : Type} {rest : List Char}

/-- A reader reads a value from a text. -/
structure Restores (read : List Char → Except Fault (Parsed α)) (text : List Char) (x : α) : Prop where
  /-- The text begins with a token, which is not the end of a list. -/
  starts : ∃ c cs, text = c :: cs ∧ isBlank c = false ∧ c ≠ ']'
  read_append : ∀ {rest : List Char}, EndsValue rest → read (text ++ rest) = .ok (x, rest)

/-! ## Scalars -/

/-- A string is read, however it is written. -/
theorem StringText.restores {s : String} {text : List Char} (h : StringText s text) :
    Restores stringValue text s := by
  cases h with
  | @quoted body hbody =>
    have hquote : isBlank '\x22' = false := by decide
    refine ⟨⟨_, _, rfl, hquote, by decide⟩, fun {rest} _ => ?_⟩
    rw [List.cons_append, List.append_assoc, stringValue, token_cons hquote]
    exact readString_charsText rest hbody

/-- A count within its bound is read, however it is written. -/
theorem NumberText.restores {n bound : ℕ} {text : List Char} (h : NumberText (.integer n) text)
    (wanted : Wanted) (hn : n < bound) : Restores (countBelow wanted bound) text n where
  starts := h.exists_cons
  read_append {rest} hrest := by
    rw [countBelow, h.numberValue_append wanted hrest.endsNumber]
    simp [hn]
    rfl

/-- A single-precision number is read, however it is written. -/
theorem SingleText.restores {x : Float32} {text : List Char} (h : SingleText x text) :
    Restores singleValue text x where
  starts := by
    obtain ⟨htext, -⟩ := h
    exact htext.exists_cons
  read_append hrest := h.singleValue_append hrest.endsNumber

/-! ## Lists -/

section

variable {item : List Char → Except Fault (Parsed α)} {first : Bool} {lead : List Char}

/-- A round of the reader of lists takes an item. -/
lemma listItems_item {value text : List Char} {x : α} (hvalue : Restores item value x)
    (htext : ItemText value text) {read : List α} (hlead : Opens read.isEmpty lead)
    (hrest : EndsValue rest) (fuel : ℕ) :
    ∃ after, IsBlanks after ∧ listItems item (fuel + 1) read (lead ++ (text ++ rest)) =
      listItems item fuel (x :: read) (after ++ rest) := by
  cases htext with
  | @spaced before after hbefore hafter =>
    refine ⟨after, hafter, ?_⟩
    simp only [List.append_assoc]
    rw [listItems, hlead.nextItem?_append hbefore hvalue.starts]
    simp only [ok_bind, hvalue.read_append (hrest.append hafter)]

/-- At its bracket the list ends. -/
lemma listItems_end {blanks : List Char} (hblanks : IsBlanks blanks) (rest : List Char) (fuel : ℕ)
    (read : List α) :
    listItems item (fuel + 1) read (blanks ++ ']' :: rest) =
      .ok (read.reverse, blanks ++ ']' :: rest) := by
  rw [listItems, hblanks.nextItem?_append]
  rfl

/-- The items of a list are read up to its bracket.

**Proof sketch.** Induction on the items, with what stands before the next one bound inside: it is a
comma from the second item on. The last blanks are left to the reader of the bracket. -/
lemma listItems_separated {values : List (List Char)} {xs : List α} {text : List Char}
    (hvalues : List.Forall₂ (Restores item) values xs) (htext : Separated ItemText values text)
    (read : List α) (hlead : Opens read.isEmpty lead) {fuel : ℕ} (hfuel : values.length < fuel)
    (rest : List Char) :
    ∃ after, IsBlanks after ∧ listItems item fuel read (lead ++ (text ++ ']' :: rest)) =
      .ok (read.reverse ++ xs, after ++ ']' :: rest) := by
  induction htext generalizing xs read lead fuel with
  | one head =>
    cases hvalues with
    | @cons _ x _ _ hvalue hnil =>
      cases hnil
      obtain ⟨fuel, rfl⟩ : ∃ k, fuel = k + 1 + 1 :=
        ⟨fuel - 2, by rw [List.length_singleton] at hfuel; omega⟩
      have hbracket : EndsValue (']' :: rest) := endsValue_cons (.inr (.inl rfl))
      obtain ⟨after, hafter, hround⟩ := listItems_item hvalue head hlead hbracket (fuel + 1)
      refine ⟨after, hafter, ?_⟩
      rw [hround, listItems_end hafter, List.reverse_cons]
  | @more value values text texts head tail ih =>
    cases hvalues with
    | @cons _ x _ xs hvalue htail =>
      obtain ⟨fuel, rfl⟩ := Nat.exists_eq_add_one_of_ne_zero (Nat.ne_zero_of_lt hfuel)
      have hcomma : EndsValue (',' :: (texts ++ ']' :: rest)) := endsValue_cons (.inl rfl)
      obtain ⟨after, hafter, hround⟩ := listItems_item hvalue head hlead hcomma fuel
      obtain ⟨last, hlast, hrun⟩ := ih htail (x :: read) (.next hafter)
        (Nat.lt_of_succ_lt_succ hfuel)
      refine ⟨last, hlast, ?_⟩
      rw [List.append_assoc, List.cons_append, hround, List.append_cons after, hrun,
        List.reverse_cons, List.append_assoc, List.singleton_append]

/-- A list is read if its items are found between its brackets. -/
lemma listValue_append {inner after : List Char} {xs : List α}
    (hitems : listItems item ((inner ++ ']' :: rest).length + 1) [] (inner ++ ']' :: rest) =
      .ok (xs, after ++ ']' :: rest)) (hafter : IsBlanks after) :
    listValue item ('[' :: (inner ++ [']']) ++ rest) = .ok (xs, rest) := by
  have hbracket : isBlank '[' = false := by decide
  rw [List.cons_append, List.append_assoc, List.singleton_append, listValue, token_cons hbracket]
  simp only [ok_bind, if_true, hitems, hafter.endList_append]
  rfl

/-- **A list is read** when its items are, in whatever layout. -/
theorem Enclosed.restores_list {values : List (List Char)} {text : List Char}
    (htext : Enclosed .list ItemText values text) {xs : List α}
    (hvalues : List.Forall₂ (Restores item) values xs) : Restores (listValue item) text xs := by
  obtain ⟨inner, rfl, hinner⟩ := htext.exists_inner
  refine ⟨⟨_, _, rfl, by decide, by decide⟩, fun {rest} _ => ?_⟩
  rcases hinner with ⟨hblanks, rfl⟩ | hentries
  · cases hvalues
    exact listValue_append (listItems_end hblanks rest _ []) hblanks
  · obtain ⟨after, hafter, hrun⟩ := listItems_separated hvalues hentries [] (.first isBlanks_nil)
      (hentries.length_lt ']' rest) rest
    exact listValue_append hrun hafter

/-- The ways to write a list of values that are themselves written in given ways. -/
inductive ListText (item : α → List Char → Prop) (xs : List α) : List Char → Prop
  | items {values : List (List Char)} {text : List Char} (hvalues : List.Forall₂ item xs values)
      (htext : Enclosed .list ItemText values text) : ListText item xs text

/-- A list is read when values written in these ways are. -/
lemma ListText.restores {write : α → List Char → Prop} {xs : List α} {text : List Char}
    (h : ListText write xs text) (hitem : ∀ {x : α} {value : List Char}, write x value →
      Restores item value x) : Restores (listValue item) text xs := by
  obtain ⟨hvalues, htext⟩ := h
  exact htext.restores_list (hvalues.imp fun _ _ hvalue => hitem hvalue).flip

/-- A round of the reader of tuples takes a number. -/
lemma tupleItems_item {value text : List Char} {x : Float32} (hvalue : Restores singleValue value x)
    (htext : ItemText value text) {size left : ℕ} (hlead : Opens (left + 1 == size) lead)
    (hrest : EndsValue rest) :
    ∃ after, IsBlanks after ∧ tupleItems size (left + 1) (lead ++ (text ++ rest)) =
      (tupleItems size left (after ++ rest)).map fun p => (x :: p.1, p.2) := by
  cases htext with
  | @spaced before after hbefore hafter =>
    refine ⟨after, hafter, ?_⟩
    simp only [List.append_assoc]
    rw [tupleItems, hlead.nextItem?_append hbefore hvalue.starts]
    simp only [ok_bind, hvalue.read_append (hrest.append hafter)]
    cases tupleItems size left (after ++ rest) <;> rfl

/-- The numbers of a tuple are read up to its bracket.

**Proof sketch.** Induction on the items, with what stands before the next one bound inside: nothing
before the first, and a comma before any other. The numbers that are left tell which it is. -/
lemma tupleItems_separated {values : List (List Char)} {xs : List Float32} {text : List Char}
    (hvalues : List.Forall₂ (Restores singleValue) values xs)
    (htext : Separated ItemText values text) {size : ℕ}
    (hlead : Opens (values.length == size) lead) (hsize : values.length ≤ size) (rest : List Char) :
    ∃ after, IsBlanks after ∧ tupleItems size values.length (lead ++ (text ++ ']' :: rest)) =
      .ok (xs, after ++ ']' :: rest) := by
  induction htext generalizing xs lead with
  | one head =>
    cases hvalues with
    | cons hvalue hnil =>
      cases hnil
      have hbracket : EndsValue (']' :: rest) := endsValue_cons (.inr (.inl rfl))
      obtain ⟨after, hafter, hround⟩ := tupleItems_item hvalue head hlead hbracket
      exact ⟨after, hafter, hround⟩
  | @more value values text texts head tail ih =>
    cases hvalues with
    | cons hvalue htail =>
      have hcomma : EndsValue (',' :: (texts ++ ']' :: rest)) := endsValue_cons (.inl rfl)
      have hfurther : (values.length == size) = false := by
        rw [beq_eq_false_iff_ne]
        exact Nat.ne_of_lt hsize
      obtain ⟨after, hafter, hround⟩ := tupleItems_item hvalue head hlead hcomma
      have hnext : Opens (values.length == size) (after ++ [',']) := by
        rw [hfurther]
        exact .next hafter
      obtain ⟨last, hlast, hrun⟩ := ih htail hnext (Nat.le_of_succ_le hsize)
      refine ⟨last, hlast, ?_⟩
      rw [List.append_assoc, List.cons_append, List.length_cons, hround, List.append_cons after, hrun]
      rfl

/-- A tuple is read if its numbers are found between its brackets. -/
lemma tupleValue_append {inner after : List Char} {xs : List Float32} {size : ℕ}
    (hitems : tupleItems size size (inner ++ ']' :: rest) = .ok (xs, after ++ ']' :: rest))
    (hafter : IsBlanks after) :
    tupleValue size ('[' :: (inner ++ [']']) ++ rest) = .ok (xs, rest) := by
  have hbracket : isBlank '[' = false := by decide
  rw [List.cons_append, List.append_assoc, List.singleton_append, tupleValue, token_cons hbracket]
  simp only [ok_bind, if_true, hitems, hafter.endList_append]
  rfl

/-- **A tuple of numbers is read** when its numbers are, in whatever layout. -/
theorem Enclosed.restores_tuple {values : List (List Char)} {text : List Char}
    (htext : Enclosed .list ItemText values text) {xs : List Float32}
    (hvalues : List.Forall₂ (Restores singleValue) values xs) :
    Restores (tupleValue xs.length) text xs := by
  have hsize := hvalues.length_eq
  obtain ⟨inner, rfl, hinner⟩ := htext.exists_inner
  refine ⟨⟨_, _, rfl, by decide, by decide⟩, fun {rest} _ => ?_⟩
  rw [← hsize]
  rcases hinner with ⟨hblanks, rfl⟩ | hentries
  · cases hvalues
    exact tupleValue_append rfl hblanks
  · have hlead : Opens (values.length == values.length) [] := by
      rw [beq_self_eq_true]
      exact .first isBlanks_nil
    obtain ⟨after, hafter, hrun⟩ :=
      tupleItems_separated hvalues hentries hlead (Nat.le_refl _) rest
    exact tupleValue_append hrun hafter

/-- A tuple of numbers is read, however they are written. -/
lemma ListText.restores_tuple {xs : List Float32} {text : List Char}
    (h : ListText SingleText xs text) : Restores (tupleValue xs.length) text xs := by
  obtain ⟨hvalues, htext⟩ := h
  exact htext.restores_tuple (hvalues.imp fun _ _ hvalue => hvalue.restores).flip

end

/-! ## Objects -/

section

variable {σ : Type} {member : String → σ → List Char → Except Fault (Parsed σ)}

/-- Members with written values take the state of a reader of members to another. -/
inductive Fills (member : String → σ → List Char → Except Fault (Parsed σ)) :
    List (String × List Char) → σ → σ → Prop
  | nil (state : σ) : Fills member [] state state
  | cons {name : String} {value : List Char} {ms : List (String × List Char)} {start next last : σ}
      (head : ∀ {rest : List Char}, EndsValue rest →
        member name start (':' :: (value ++ rest)) = .ok (next, rest))
      (tail : Fills member ms next last) : Fills member ((name, value) :: ms) start last

/-- An entry of an object is one round of the reader, which takes the state to the next. -/
def TakesRound (member : String → σ → List Char → Except Fault (Parsed σ)) (start : σ)
    (text : List Char) (next : σ) : Prop :=
  ∀ {first : Bool} {lead rest : List Char} (fuel : ℕ), Opens first lead → EndsValue rest →
    ∃ after, IsBlanks after ∧ membersFrom member (fuel + 1) first start (lead ++ (text ++ rest)) =
      membersFrom member fuel false next (after ++ rest)

/-- A round finds a name and reads its member. -/
lemma membersFrom_member {first : Bool} {start next : σ} {name : String} {cs behind : List Char}
    (hname : nextName? first cs = .ok (some (name, behind)))
    (hmember : member name start behind = .ok (next, rest)) (fuel : ℕ) :
    membersFrom member (fuel + 1) first start cs = membersFrom member fuel false next rest := by
  rw [membersFrom, hname]
  simp only [ok_bind, hmember]

/-- At its bracket the object ends. -/
lemma membersFrom_end {blanks : List Char} (hblanks : IsBlanks blanks) (rest : List Char) (fuel : ℕ)
    (first : Bool) (state : σ) :
    membersFrom member (fuel + 1) first state (blanks ++ '\x7d' :: rest) = .ok (state, rest) := by
  rw [membersFrom, hblanks.nextName?_append]
  simp only [ok_bind, hblanks.endObject_append]
  rfl

/-- A reader of members takes entries that are written in a given way, one in each round, if it reads
what follows their names. -/
def TakesEntries (member : String → σ → List Char → Except Fault (Parsed σ))
    (entry : String × List Char → List Char → Prop) : Prop :=
  ∀ {name : String} {value text : List Char} {start next : σ}, entry (name, value) text →
    (∀ {rest : List Char}, EndsValue rest →
      member name start (':' :: (value ++ rest)) = .ok (next, rest)) →
    TakesRound member start text next

section

variable {entry : String × List Char → List Char → Prop} (hentry : TakesEntries member entry)
  {ms : List (String × List Char)} {start last : σ} (h : Fills member ms start last)
  {text : List Char}

include hentry h

/-- The members of an object are read up to its bracket. -/
lemma Fills.membersFrom_separated (htext : Separated entry ms text) {first : Bool}
    {lead : List Char} (hlead : Opens first lead) {fuel : ℕ} (hfuel : ms.length < fuel)
    (rest : List Char) :
    membersFrom member fuel first start (lead ++ (text ++ '\x7d' :: rest)) = .ok (last, rest) := by
  induction htext generalizing start first lead fuel with
  | one head =>
    cases h with
    | cons hhead htail =>
      cases htail
      obtain ⟨fuel, rfl⟩ : ∃ k, fuel = k + 1 + 1 :=
        ⟨fuel - 2, by rw [List.length_singleton] at hfuel; omega⟩
      have hbracket : EndsValue ('\x7d' :: rest) := endsValue_cons (.inr (.inr rfl))
      obtain ⟨after, hafter, hround⟩ := hentry head hhead (fuel + 1) hlead hbracket
      rw [hround, membersFrom_end hafter]
  | @more _ ms text texts head tail ih =>
    cases h with
    | cons hhead htail =>
      obtain ⟨fuel, rfl⟩ := Nat.exists_eq_add_one_of_ne_zero (Nat.ne_zero_of_lt hfuel)
      have hcomma : EndsValue (',' :: (texts ++ '\x7d' :: rest)) := endsValue_cons (.inl rfl)
      obtain ⟨after, hafter, hround⟩ := hentry head hhead fuel hlead hcomma
      rw [List.append_assoc, List.cons_append, hround, List.append_cons after]
      exact ih htail (.next hafter) (Nat.lt_of_succ_lt_succ hfuel)

/-- **An object is read** member by member. -/
theorem Fills.members_enclosed (htext : Enclosed .object entry ms text) :
    ∃ inner, text = '\x7b' :: inner ∧
      ∀ rest, members member start (inner ++ rest) = .ok (last, rest) := by
  obtain ⟨inner, rfl, hinner⟩ := htext.exists_inner
  refine ⟨_, rfl, fun rest => ?_⟩
  rw [List.append_assoc, List.singleton_append, Bracket.close, members]
  rcases hinner with ⟨hblanks, rfl⟩ | hentries
  · cases h
    exact membersFrom_end hblanks rest _ _ _
  · exact h.membersFrom_separated hentry hentries (.first isBlanks_nil)
      (hentries.length_lt '\x7d' rest) rest

end

/-- A reader of members that reads on if there are blanks around the colon. -/
def IgnoresBlanks (member : String → σ → List Char → Except Fault (Parsed σ)) : Prop :=
  ∀ {name : String} {start : σ} {cs : List Char} {p : Parsed σ} {middle before : List Char},
    member name start (':' :: cs) = .ok p → IsBlanks middle → IsBlanks before →
    member name start (middle ++ ':' :: (before ++ cs)) = .ok p

/-- Such a reader takes named values, however they are written. -/
lemma IgnoresBlanks.takesEntries (h : IgnoresBlanks member) :
    TakesEntries member fun m => MemberText (CharsText m.1.toList) m.2 := by
  intro name value text start next htext hmember first lead rest fuel hlead hrest
  cases htext with
  | @named before body middle _ hbefore hbody hmiddle hitem =>
    cases hitem with
    | @spaced space after hspace hafter =>
      refine ⟨after, hafter, ?_⟩
      have hname := hlead.nextName?_append hbefore hbody
        (middle ++ ':' :: (space ++ (value ++ (after ++ rest))))
      have hvalue := h (hmember (hrest.append hafter)) hmiddle hspace
      simp only [List.append_assoc, List.cons_append]
      exact membersFrom_member hname hvalue fuel

end

/-- A member that has not been given before is read. -/
lemma Restores.once {value : List Char → Except Fault (Parsed α)} {text : List Char} {x : α}
    (h : Restores value text x) (name : String) (hrest : EndsValue rest) :
    once name none value (':' :: (text ++ rest)) = .ok (x, rest) :=
  h.read_append hrest

/-! ## Documents -/

/-- A document may end with blanks. -/
lemma document_eq_ok {value : List Char → Except Fault (Parsed α)} {text : String} {x : α}
    (hread : value text.toList = .ok (x, rest)) (hrest : IsBlanks rest) :
    document value text = .ok x := by
  have hend : skipBlank rest = [] := by
    rw [← List.append_nil rest, hrest.skipBlank_append, skipBlank, List.dropWhile_nil]
  rw [document, hread]
  simp only [ok_bind, hend]
  rfl

/-- **A document is read** when its value is. -/
theorem Restores.document {value : List Char → Except Fault (Parsed α)} {text : List Char} {x : α}
    (h : Restores value text x) : document value (String.ofList text) = .ok x := by
  refine document_eq_ok ?_ isBlanks_nil
  rw [String.toList_ofList, ← h.read_append endsValue_nil, List.append_nil]

end Ribbon.Json
