import Mathlib.Data.List.Basic
import Ribbon.Sequence

/-!
# Reading and writing sequences

A text is read as a sequence if its characters are legible, that is blank or one of the four that stand
for symbols. What is read is then the one sequence that is spelled by the characters that are not blank.
Otherwise the first character that is not legible is reported, with the number of characters before it.
So writing what has been read takes the blanks out of a text, and two texts are read alike if they
differ in blanks only.

## Main definitions

* `Ribbon.Sequence.IsLegible` — the characters that a sequence may be spelled with.
* `Ribbon.Text.marks`, `Ribbon.Text.withoutBlanks` — a text without its blank characters.

## Main results

* `Ribbon.Sequence.parseFrom_append` — reading goes on after legible characters.
* `Ribbon.Sequence.exists_first_foreign` — a text is legible or has a first character that is not.
* `Ribbon.Sequence.parseFrom_eq_ok_iff` — which characters are read as which sequence.
* `Ribbon.Sequence.parse_reads_or_reports` — when a text is read, as what, and what is reported if not.
* `Ribbon.Sequence.notation_round_trips` — writing and reading undo each other, blanks apart.
-/

set_option relaxedAutoImplicit false
set_option autoImplicit false

namespace Ribbon

/-! ## Characters -/

namespace Text

/-- The characters that are not blank. -/
def marks (cs : List Char) : List Char :=
  cs.filter fun c => !isBlank c

/-- A text with its blank characters taken out. -/
def withoutBlanks (text : String) : String :=
  String.ofList (marks text.toList)

variable {c : Char}

/-- A blank character leaves no mark. -/
lemma marks_cons_of_blank (h : isBlank c = true) (cs : List Char) : marks (c :: cs) = marks cs :=
  List.filter_cons_of_neg (by simp [h])

/-- Any other character is a mark. -/
lemma marks_cons_of_not_blank (h : isBlank c = false) (cs : List Char) :
    marks (c :: cs) = c :: marks cs :=
  List.filter_cons_of_pos (by simp [h])

end Text

/-- Different symbols are written with different characters. -/
lemma Symbol.char_injective : Function.Injective Symbol.char := by
  intro a b h
  have hread := Symbol.ofChar?_eq_some_iff.2 h
  rw [Symbol.ofChar?_eq_some_iff.2 rfl] at hread
  exact Option.some.inj hread

namespace Sequence

open Text (isBlank marks withoutBlanks)

variable {c : Char} {cs before : List Char} {s : Sequence}

/-- A sequence may be spelled with the characters of the symbols and with blank characters. -/
def IsLegible (c : Char) : Prop :=
  c ∈ ['L', 'R', '+', '-'] ∨ isBlank c = true

instance : DecidablePred IsLegible := fun _ => inferInstanceAs (Decidable (_ ∨ _))

/-- The characters of the alphabet are those of the symbols. -/
lemma mem_alphabet_iff : c ∈ ['L', 'R', '+', '-'] ↔ ∃ a : Symbol, c = a.char := by
  constructor
  · intro h
    simp only [List.mem_cons, List.not_mem_nil, or_false] at h
    rcases h with rfl | rfl | rfl | rfl
    exacts [⟨.forwardA, rfl⟩, ⟨.forwardB, rfl⟩, ⟨.turnLeft, rfl⟩, ⟨.turnRight, rfl⟩]
  · rintro ⟨a, rfl⟩
    cases a <;> decide

/-! ## One character -/

/-- A blank character is skipped, and counted. -/
lemma parseFrom_blank (h : isBlank c = true) (position : Nat) (cs : List Char) :
    parseFrom position (c :: cs) = parseFrom (position + 1) cs := by
  rw [parseFrom, if_pos h]

/-- The character of a symbol is read, and counted. -/
lemma parseFrom_char (a : Symbol) (position : Nat) (cs : List Char) :
    parseFrom position (a.char :: cs) = (parseFrom (position + 1) cs).map (a :: ·) := by
  rw [parseFrom, if_neg (by simp [isBlank_char]), symbolAt_char]
  cases parseFrom (position + 1) cs <;> rfl

/-- Any other character is reported. -/
lemma parseFrom_foreign (h : ¬ IsLegible c) (position : Nat) (cs : List Char) :
    parseFrom position (c :: cs) = .error ⟨c, position⟩ := by
  rw [IsLegible, mem_alphabet_iff, not_or] at h
  obtain ⟨hchar, hblank⟩ := h
  have hnone : Symbol.ofChar? c = none :=
    Option.eq_none_iff_forall_ne_some.2 fun a ha => hchar ⟨a, Symbol.ofChar?_eq_some_iff.1 ha⟩
  rw [parseFrom, if_neg hblank, symbolAt, hnone]
  rfl

/-! ## Many characters -/

/-- **Reading goes on after legible characters.** They are read as a sequence that is spelled by those
that are not blank, whatever follows; and all of them count.

**Proof sketch.** Induction on the characters, one step for each kind. What follows them is bound inside,
because the sequence must not depend on it. -/
theorem parseFrom_append (h : ∀ b ∈ before, IsLegible b) (position : Nat) :
    ∃ s : Sequence, s.map Symbol.char = marks before ∧ ∀ cs : List Char,
      parseFrom position (before ++ cs) =
        (parseFrom (position + before.length) cs).map (s ++ ·) := by
  induction before generalizing position with
  | nil =>
    refine ⟨[], rfl, fun cs => ?_⟩
    change parseFrom position cs = (parseFrom position cs).map ([] ++ ·)
    cases parseFrom position cs <;> rfl
  | cons b before ih =>
    obtain ⟨hb, hrest⟩ := List.forall_mem_cons.1 h
    obtain ⟨s, hs, hread⟩ := ih hrest (position + 1)
    have hlength : position + (b :: before).length = position + 1 + before.length := by
      rw [List.length_cons]
      omega
    rw [hlength]
    rcases hb with halphabet | hblank
    · obtain ⟨a, rfl⟩ := mem_alphabet_iff.1 halphabet
      refine ⟨a :: s, ?_, fun cs => ?_⟩
      · rw [List.map_cons, hs, Text.marks_cons_of_not_blank (isBlank_char a)]
      · rw [List.cons_append, parseFrom_char, hread]
        cases parseFrom (position + 1 + before.length) cs <;> rfl
    · refine ⟨s, ?_, fun cs => ?_⟩
      · rw [hs, Text.marks_cons_of_blank hblank]
      · rw [List.cons_append, parseFrom_blank hblank, hread]

/-- Legible characters are read as a sequence that is spelled by those that are not blank. -/
lemma parseFrom_of_legible (h : ∀ c ∈ cs, IsLegible c) (position : Nat) :
    ∃ s : Sequence, s.map Symbol.char = marks cs ∧ parseFrom position cs = .ok s := by
  obtain ⟨s, hs, hread⟩ := parseFrom_append h position
  refine ⟨s, hs, ?_⟩
  have hall := hread []
  rw [List.append_nil, parseFrom, Except.map, List.append_nil] at hall
  exact hall

/-- A foreign character after legible ones is reported, with their number. -/
lemma parseFrom_of_foreign (hbefore : ∀ b ∈ before, IsLegible b) (hc : ¬ IsLegible c)
    (position : Nat) (after : List Char) :
    parseFrom position (before ++ c :: after) = .error ⟨c, position + before.length⟩ := by
  obtain ⟨s, -, hread⟩ := parseFrom_append hbefore position
  rw [hread, parseFrom_foreign hc]
  rfl

/-- Characters are legible, or there is a first one that is not. -/
theorem exists_first_foreign (cs : List Char) :
    (∀ c ∈ cs, IsLegible c) ∨
      ∃ before c after, cs = before ++ c :: after ∧ (∀ b ∈ before, IsLegible b) ∧ ¬ IsLegible c := by
  cases hfind : cs.find? fun c => !decide (IsLegible c) with
  | none => exact .inl (by simpa using List.find?_eq_none.1 hfind)
  | some c =>
    obtain ⟨hc, before, after, rfl, hbefore⟩ := List.find?_eq_some_iff_append.1 hfind
    exact .inr ⟨before, c, after, rfl, by simpa using hbefore, by simpa using hc⟩

/-- Characters spell a sequence only if they are legible. -/
lemma legible_of_map_char (h : s.map Symbol.char = marks cs) : ∀ c ∈ cs, IsLegible c := by
  intro c hc
  by_cases hblank : isBlank c = true
  · exact .inr hblank
  · have hmark : c ∈ marks cs := List.mem_filter.2 ⟨hc, by simpa using hblank⟩
    rw [← h] at hmark
    obtain ⟨a, -, ha⟩ := List.mem_map.1 hmark
    exact .inl (mem_alphabet_iff.2 ⟨a, ha.symm⟩)

/-- **Characters are read as the sequence that those spell which are not blank.**

**Proof sketch.** Legible characters are read as a sequence that they spell, and they spell no other.
Characters that are not legible spell none, and reading them ends with an error. -/
theorem parseFrom_eq_ok_iff {position : Nat} :
    parseFrom position cs = .ok s ↔ s.map Symbol.char = marks cs := by
  constructor
  · intro hread
    rcases exists_first_foreign cs with h | ⟨before, c, after, rfl, hbefore, hc⟩
    · obtain ⟨t, ht, hreadt⟩ := parseFrom_of_legible h position
      obtain rfl : t = s := Except.ok.inj (hreadt.symm.trans hread)
      exact ht
    · rw [parseFrom_of_foreign hbefore hc] at hread
      cases hread
  · intro hspell
    obtain ⟨t, ht, hread⟩ := parseFrom_of_legible (legible_of_map_char hspell) position
    obtain rfl : t = s := List.map_injective_iff.2 Symbol.char_injective (ht.trans hspell.symm)
    exact hread

/-- The error of reading characters is their first one that is not legible. -/
lemma parseFrom_eq_error_iff {position : Nat} {m : Malformed} :
    parseFrom position cs = .error m ↔
      ∃ before after, cs = before ++ m.symbol :: after ∧ m.position = position + before.length ∧
        (∀ b ∈ before, IsLegible b) ∧ ¬ IsLegible m.symbol := by
  constructor
  · intro hread
    rcases exists_first_foreign cs with h | ⟨before, c, after, rfl, hbefore, hc⟩
    · obtain ⟨t, -, hreadt⟩ := parseFrom_of_legible h position
      rw [hreadt] at hread
      cases hread
    · rw [parseFrom_of_foreign hbefore hc] at hread
      cases hread
      exact ⟨before, after, rfl, rfl, hbefore, hc⟩
  · rintro ⟨before, after, rfl, hposition, hbefore, hc⟩
    rw [parseFrom_of_foreign hbefore hc, ← hposition]

/-! ## Texts -/

variable {text : String}

/-- A text is read as the sequence that is written like it, blanks apart. -/
lemma parse_eq_ok_iff : parse text = .ok s ↔ format s = withoutBlanks text := by
  rw [parse, parseFrom_eq_ok_iff, format, withoutBlanks, String.ofList_inj]

/-- Different sequences are written differently. -/
lemma format_injective : Function.Injective format := by
  intro s t h
  have hread := parse_format s
  rw [h, parse_format] at hread
  exact (Except.ok.inj hread).symm

/-- **A text is read, or its first foreign character is reported.** It is read just if every character is
legible, and then as the one sequence whose characters are those of the text that are not blank, in
order. Otherwise the error names the first character that is not legible, and the number of characters
before it, blank ones among them. -/
theorem parse_reads_or_reports (text : String) :
    ((∃ s, parse text = .ok s) ↔ ∀ c ∈ text.toList, IsLegible c) ∧
      (∀ s, parse text = .ok s ↔ s.map Symbol.char = marks text.toList) ∧
      ∀ m, parse text = .error m ↔
        ∃ before after, text.toList = before ++ m.symbol :: after ∧ m.position = before.length ∧
          (∀ b ∈ before, IsLegible b) ∧ ¬ IsLegible m.symbol := by
  refine ⟨⟨?_, ?_⟩, fun s => parseFrom_eq_ok_iff, fun m => ?_⟩
  · rintro ⟨s, hs⟩
    exact legible_of_map_char (parseFrom_eq_ok_iff.1 hs)
  · intro h
    obtain ⟨s, -, hs⟩ := parseFrom_of_legible h 0
    exact ⟨s, hs⟩
  · simp only [parse, parseFrom_eq_error_iff, Nat.zero_add]

/-- The position counts characters, not bytes, and blank ones as well. -/
example : parse "L\u3000R\n+é -x" = .error ⟨'é', 5⟩ := by decide

/-- **Writing and reading undo each other, blanks apart.** What is written is read back; a text is read
as a sequence just if taking its blanks out gives what is written for the sequence; and so two texts
that are read give the same sequence just if they are equal without their blanks. -/
theorem notation_round_trips :
    (∀ s, parse (format s) = .ok s) ∧
      (∀ text s, parse text = .ok s ↔ format s = withoutBlanks text) ∧
      ∀ text text' s s', parse text = .ok s → parse text' = .ok s' →
        (s = s' ↔ withoutBlanks text = withoutBlanks text') := by
  refine ⟨parse_format, fun text s => parse_eq_ok_iff, ?_⟩
  intro text text' s s' hs hs'
  rw [← parse_eq_ok_iff.1 hs, ← parse_eq_ok_iff.1 hs', format_injective.eq_iff]

/-- Two texts that differ in their blanks, some of them outside of ASCII, and one that differs in its last
turn. -/
theorem notation_round_trips_spaced :
    let s : Sequence := [.turnRight, .forwardB, .turnLeft, .forwardA]
    let t : Sequence := [.turnRight, .forwardB, .turnRight, .forwardA]
    (parse "- R\n+ L" = .ok s ∧ parse "\u3000-R+\u2003L\u0085" = .ok s ∧ parse "-R -L" = .ok t) ∧
      withoutBlanks "- R\n+ L" = withoutBlanks "\u3000-R+\u2003L\u0085" ∧
      withoutBlanks "- R\n+ L" ≠ withoutBlanks "-R -L" := by
  intro s t
  have hs : parse "- R\n+ L" = .ok s := by decide
  have hs' : parse "\u3000-R+\u2003L\u0085" = .ok s := by decide
  have ht : parse "-R -L" = .ok t := by decide
  have hne : s ≠ t := by decide
  obtain ⟨-, -, hsame⟩ := notation_round_trips
  exact ⟨⟨hs, hs', ht⟩, (hsame _ _ _ _ hs hs').1 rfl, fun h => hne ((hsame _ _ _ _ hs ht).2 h)⟩

end Sequence

end Ribbon
