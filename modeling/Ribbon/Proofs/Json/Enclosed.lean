import Ribbon.Json.Reader
import Ribbon.Proofs.Json.Number
import Ribbon.Proofs.Json.Text

/-!
# Lists and objects, however they are laid out

A list or an object has entries between its brackets, with commas between them. An entry of a list is a
value, and an entry of an object is a value with a name in front. Blanks may stand on both sides of
every token, so that there are many ways to write the same entries. All of them are found one by one.

## Main definitions

* `Ribbon.Json.IsBlanks` — what may stand between two tokens.
* `Ribbon.Json.ItemText`, `Ribbon.Json.MemberText` — the ways to write an entry.
* `Ribbon.Json.Separated`, `Ribbon.Json.Enclosed` — the ways to write entries in a row, and in
  brackets.
* `Ribbon.Json.StartsValue`, `Ribbon.Json.EndsValue` — how a value begins, and what may follow it.
* `Ribbon.Json.Opens` — what stands before an entry.

## Main results

* `Ribbon.Json.Opens.nextItem?_append` — the next item is found.
* `Ribbon.Json.Opens.nextName?_append` — the name of the next member is found.
-/

set_option relaxedAutoImplicit false
set_option autoImplicit false

namespace Ribbon.Json

variable {α : Type} {blanks rest : List Char}

/-! ## Blanks -/

/-- Blanks may stand on both sides of every token. -/
def IsBlanks (cs : List Char) : Prop :=
  ∀ c ∈ cs, isBlank c = true

instance : DecidablePred IsBlanks := fun cs => List.decidableBAll (fun c => isBlank c = true) cs

/-- There may be no blanks at all. -/
lemma isBlanks_nil : IsBlanks [] := by simp [IsBlanks]

/-- Blanks are dropped before a token. -/
lemma IsBlanks.skipBlank_append (h : IsBlanks blanks) (rest : List Char) :
    skipBlank (blanks ++ rest) = skipBlank rest :=
  List.dropWhile_append_of_pos h

/-- The token behind blanks is the token without them. -/
lemma IsBlanks.token_append (h : IsBlanks blanks) (rest : List Char) :
    token (blanks ++ rest) = token rest := by
  rw [token, h.skipBlank_append, ← token]

/-- A token is found behind blanks. -/
lemma IsBlanks.token_append_cons (h : IsBlanks blanks) {c : Char} (hc : isBlank c = false)
    (rest : List Char) : token (blanks ++ c :: rest) = .ok (c, rest) := by
  rw [h.token_append, token_cons hc]

/-- A bracket at the end is found behind blanks. -/
lemma IsBlanks.endList_append (h : IsBlanks blanks) (rest : List Char) :
    endList (blanks ++ ']' :: rest) = .ok rest := by
  rw [endList, h.skipBlank_append]
  rfl

/-- So is the bracket that ends an object. -/
lemma IsBlanks.endObject_append (h : IsBlanks blanks) (rest : List Char) :
    endObject (blanks ++ '\x7d' :: rest) = .ok rest := by
  rw [endObject, h.skipBlank_append]
  rfl

/-- A colon is found behind blanks. -/
lemma IsBlanks.readColon_append (h : IsBlanks blanks) (rest : List Char) :
    readColon (blanks ++ ':' :: rest) = .ok rest := by
  rw [readColon, h.skipBlank_append]
  rfl

/-! ## Values and what is around them -/

/-- A value begins with a token that does not close a list. -/
def StartsValue (text : List Char) : Prop :=
  ∃ c cs, text = c :: cs ∧ isBlank c = false ∧ c ≠ ']'

/-- The text ends, or goes on with what may stand behind a value. -/
def EndsValue (rest : List Char) : Prop :=
  ∀ c ∈ rest.head?, isBlank c = true ∨ c = ',' ∨ c = ']' ∨ c = '\x7d'

/-- A value may end with the text. -/
lemma endsValue_nil : EndsValue [] := by simp [EndsValue]

/-- A value may end before a comma or a closing bracket. -/
lemma endsValue_cons {c : Char} (h : c = ',' ∨ c = ']' ∨ c = '\x7d') : EndsValue (c :: rest) := by
  intro d hd
  obtain rfl : c = d := by simpa using hd
  exact .inr h

/-- Blanks may stand between a value and what is behind it. -/
lemma EndsValue.append (h : EndsValue rest) (hblanks : IsBlanks blanks) :
    EndsValue (blanks ++ rest) := by
  cases blanks with
  | nil => exact h
  | cons c cs =>
    intro d hd
    obtain rfl : c = d := by simpa using hd
    exact .inl (hblanks c List.mem_cons_self)

/-- No part of a number stands behind a value. -/
lemma EndsValue.endsNumber (h : EndsValue rest) : EndsNumber rest := by
  intro c hc
  rcases h c hc with hblank | rfl | rfl | rfl
  · simp only [isBlank, Bool.or_eq_true, decide_eq_true_eq] at hblank
    rcases hblank with ((rfl | rfl) | rfl) | rfl <;> decide
  all_goals decide

/-! ## Layout -/

/-- The character that opens a bracket. -/
def Bracket.opening : Bracket → Char
  | .list => '['
  | .object => '\x7b'

/-- The ways to write a value as an item of a list. -/
inductive ItemText (value : List Char) : List Char → Prop
  | spaced {before after : List Char} (hbefore : IsBlanks before) (hafter : IsBlanks after) :
      ItemText value (before ++ (value ++ after))

/-- The ways to write a value as a member of an object, with a name in the given ways. -/
inductive MemberText (name : List Char → Prop) (value : List Char) : List Char → Prop
  | named {before body middle item : List Char} (hbefore : IsBlanks before) (hbody : name body)
      (hmiddle : IsBlanks middle) (hitem : ItemText value item) :
      MemberText name value (before ++ '\x22' :: (body ++ '\x22' :: (middle ++ ':' :: item)))

/-- The ways to write entries with commas between them. -/
inductive Separated (entry : α → List Char → Prop) : List α → List Char → Prop
  | one {x : α} {text : List Char} (head : entry x text) : Separated entry [x] text
  | more {x : α} {xs : List α} {text texts : List Char} (head : entry x text)
      (tail : Separated entry xs texts) : Separated entry (x :: xs) (text ++ ',' :: texts)

/-- The ways to write a list or an object with entries. -/
inductive Enclosed (b : Bracket) (entry : α → List Char → Prop) : List α → List Char → Prop
  | empty {blanks : List Char} (hblanks : IsBlanks blanks) :
      Enclosed b entry [] (b.opening :: (blanks ++ [b.close]))
  | filled {xs : List α} {text : List Char} (hentries : Separated entry xs text) :
      Enclosed b entry xs (b.opening :: (text ++ [b.close]))

/-- There is a comma between any two entries. -/
lemma Separated.length_le {entry : α → List Char → Prop} {xs : List α} {text : List Char}
    (h : Separated entry xs text) : xs.length ≤ text.length + 1 := by
  induction h with
  | one => simp
  | more _ _ ih =>
    simp only [List.length_cons, List.length_append]
    omega

/-- There are fewer entries than characters up to the bracket, with one to spare. -/
lemma Separated.length_lt {entry : α → List Char → Prop} {xs : List α} {text : List Char}
    (h : Separated entry xs text) (c : Char) (rest : List Char) :
    xs.length < (text ++ c :: rest).length + 1 := by
  have hle := h.length_le
  simp only [List.length_append, List.length_cons]
  omega

/-- There are blanks between the brackets, or entries. -/
lemma Enclosed.exists_inner {b : Bracket} {entry : α → List Char → Prop} {xs : List α}
    {text : List Char} (h : Enclosed b entry xs text) :
    ∃ inner, text = b.opening :: (inner ++ [b.close]) ∧
      (IsBlanks inner ∧ xs = [] ∨ Separated entry xs inner) := by
  cases h with
  | empty hblanks => exact ⟨_, rfl, .inl ⟨hblanks, rfl⟩⟩
  | filled hentries => exact ⟨_, rfl, .inr hentries⟩

/-- What stands before an entry: blanks before the first one, a comma before any other. -/
inductive Opens : Bool → List Char → Prop
  | first {blanks : List Char} (hblanks : IsBlanks blanks) : Opens true blanks
  | next {blanks : List Char} (hblanks : IsBlanks blanks) : Opens false (blanks ++ [','])

/-! ## Items -/

section

variable {first : Bool} {lead : List Char}

/-- **The next item is found.** -/
theorem Opens.nextItem?_append (h : Opens first lead) (hblanks : IsBlanks blanks)
    {value : List Char} (hvalue : StartsValue value) (rest : List Char) :
    nextItem? first (lead ++ (blanks ++ (value ++ rest))) = .ok (some (value ++ rest)) := by
  obtain ⟨c, cs, rfl, hc, hend⟩ := hvalue
  have hcomma : isBlank ',' = false := by decide
  cases h with
  | first hlead =>
    rw [nextItem?, hlead.token_append, List.cons_append, hblanks.token_append_cons hc]
    simp only [ok_bind, if_neg hend, if_true]
    rfl
  | next hlead =>
    rw [nextItem?, List.append_assoc, List.singleton_append, hlead.token_append_cons hcomma]
    simp [hblanks.token_append_cons hc, hend]
    rfl

/-- A list ends with its bracket. -/
lemma IsBlanks.nextItem?_append (h : IsBlanks blanks) (first : Bool) (rest : List Char) :
    nextItem? first (blanks ++ ']' :: rest) = .ok none := by
  have hbracket : isBlank ']' = false := by decide
  rw [nextItem?, h.token_append_cons hbracket]
  rfl

/-! ## Names -/

/-- **The name of the next member is found**, however it is written. -/
theorem Opens.nextName?_append (h : Opens first lead) (hblanks : IsBlanks blanks) {name : String}
    {body : List Char} (hbody : CharsText name.toList body) (rest : List Char) :
    nextName? first (lead ++ (blanks ++ '\x22' :: (body ++ '\x22' :: rest))) =
      .ok (some (name, rest)) := by
  have hmark : isBlank '\x22' = false := by decide
  have hcomma : isBlank ',' = false := by decide
  cases h with
  | first hlead =>
    rw [nextName?, hlead.token_append, hblanks.token_append_cons hmark]
    simp [nextName?.name, readString_charsText rest hbody]
  | next hlead =>
    rw [nextName?, List.append_assoc, List.singleton_append, hlead.token_append_cons hcomma]
    simp [nextName?.name, hblanks.token_append_cons hmark, readString_charsText rest hbody]

/-- An object ends with its bracket. -/
lemma IsBlanks.nextName?_append (h : IsBlanks blanks) (first : Bool) (rest : List Char) :
    nextName? first (blanks ++ '\x7d' :: rest) = .ok none := by
  have hbracket : isBlank '\x7d' = false := by decide
  rw [nextName?, h.token_append_cons hbracket]
  rfl

end

end Ribbon.Json
