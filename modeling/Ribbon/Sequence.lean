import Ribbon.Symbol
import Ribbon.Text

/-!
# Sequences of symbols

A sequence is a word over the alphabet. It is written with one character for each symbol, it grows by
replacing every symbol by its production, and it is walked from either end.

## Main definitions

* `Ribbon.Sequence` — a word over the alphabet.
* `Ribbon.Sequence.format`, `Ribbon.Sequence.parse` — writing and reading.
* `Ribbon.Sequence.Malformed` — the first foreign character and where it stands.
* `Ribbon.Sequence.grow` — one generation.
* `Ribbon.Sequence.grown` — any number of generations.
* `Ribbon.Sequence.growLength` — the length of the next generation.
* `Ribbon.Symbol.mirror` — the symbol that undoes another from the other side.
* `Ribbon.Sequence.reversal` — the sequence of the reversed walk.

## Main results

* `Ribbon.Sequence.parse_format` — what is written is read back.
* `Ribbon.Sequence.grown_succ` — every generation grows from the one before, also when the
  sequence has stopped growing.
* `Ribbon.Sequence.grown_add` — generations can be grown in two goes.
* `Ribbon.Sequence.length_grow` — `growLength` is the length of the next generation.
* `Ribbon.Sequence.reversal_reversal` — reversing twice changes nothing.
* `Ribbon.Sequence.reversal_append` — reversal exchanges the parts of a walk.
-/

set_option relaxedAutoImplicit false
set_option autoImplicit false

namespace Ribbon

/-! ## Sequences and their notation

A sequence of symbols is written with one character each. Blank characters between symbols are
skipped, and any other foreign character makes the whole text malformed.
-/

/-- A word over the alphabet. -/
abbrev Sequence := List Symbol

namespace Sequence

/-- A text is malformed at its first character that is neither blank nor a symbol. -/
structure Malformed where
  /-- The foreign character. -/
  symbol : Char
  /-- The number of characters before it, blank ones included. -/
  position : Nat
  deriving DecidableEq

/-- The symbol that stands at a position of a text. -/
def symbolAt (c : Char) (position : Nat) : Except Malformed Symbol :=
  match Symbol.ofChar? c with
  | some s => .ok s
  | none => .error ⟨c, position⟩

/-- Reads characters, the first of which stands at `position`. -/
def parseFrom (position : Nat) : List Char → Except Malformed Sequence
  | [] => .ok []
  | c :: rest =>
    if Text.isBlank c then parseFrom (position + 1) rest
    else do
      let s ← symbolAt c position
      let tail ← parseFrom (position + 1) rest
      return s :: tail

/-- The sequence that a text spells. -/
def parse (text : String) : Except Malformed Sequence :=
  parseFrom 0 text.toList

/-- The text that spells a sequence, without blanks. -/
def format (s : Sequence) : String :=
  String.ofList (s.map Symbol.char)

/-- No symbol is written with a blank character. -/
theorem isBlank_char (s : Symbol) : Text.isBlank s.char = false := by
  cases s <;> rfl

/-- The character of a symbol is read as that symbol, wherever it stands. -/
@[simp]
theorem symbolAt_char (s : Symbol) (position : Nat) : symbolAt s.char position = .ok s := by
  cases s <;> rfl

/-- The characters of a sequence are read as that sequence, wherever they stand. -/
theorem parseFrom_map_char (s : Sequence) (position : Nat) :
    parseFrom position (s.map Symbol.char) = .ok s := by
  induction s generalizing position with
  | nil => rfl
  | cons a s ih => simp [parseFrom, isBlank_char, ih, bind, Except.bind, pure, Except.pure]

/-- What is written is read back. -/
@[simp]
theorem parse_format (s : Sequence) : parse (format s) = .ok s := by
  rw [parse, format, String.toList_ofList, parseFrom_map_char]

end Sequence

end Ribbon

namespace Ribbon.Sequence

/-! ## Growth

In one generation every symbol is replaced by its production. A sequence without strokes has
stopped growing.
-/

/-- The next generation: every symbol is replaced by its production. -/
def grow (s : Sequence) : Sequence :=
  s.flatMap Symbol.production

/-- The number of symbols in the next generation. -/
def growLength (s : Sequence) : Nat :=
  s.foldr (fun a n => a.production.length + n) 0

/-- A sequence without strokes does not grow. -/
def isTerminal (s : Sequence) : Bool :=
  s.all fun a => !a.isForward

/-- The sequence after some generations. A sequence that does not grow is its own future, however
many generations are asked for. -/
def grown : Sequence → Nat → Sequence
  | s, 0 => s
  | s, generations + 1 => if isTerminal s then s else grown (grow s) generations

/-- The sequences of the generations `1` to `generations`. -/
def generationsOf (s : Sequence) (generations : Nat) : List Sequence :=
  (List.range generations).map fun g => grown s (g + 1)

/-- Nothing grows from nothing. -/
@[simp]
theorem grow_nil : grow [] = [] := rfl

/-- The first symbol is replaced before the others. -/
@[simp]
theorem grow_cons (a : Symbol) (s : Sequence) :
    grow (a :: s) = a.production ++ grow s := rfl

/-- The parts of a sequence grow independently. -/
@[simp]
theorem grow_append (s t : Sequence) : grow (s ++ t) = grow s ++ grow t :=
  List.flatMap_append

/-- `growLength` is the length of the next generation. -/
theorem length_grow (s : Sequence) : (grow s).length = growLength s := by
  induction s with
  | nil => rfl
  | cons a s ih => rw [grow_cons, List.length_append, ih]; rfl

/-- A sequence without strokes is its own next generation. -/
theorem grow_of_isTerminal {s : Sequence} (h : isTerminal s = true) : grow s = s := by
  induction s with
  | nil => rfl
  | cons a s ih =>
    simp only [isTerminal, List.all_cons, Bool.and_eq_true] at h
    rw [grow_cons, ih h.2]
    cases a with
    | forwardA | forwardB => cases h.1
    | turnLeft | turnRight => rfl

/-- No generation has passed at the start. -/
@[simp]
theorem grown_zero (s : Sequence) : grown s 0 = s := by
  simp [grown]

/-- A sequence without strokes is its own future. -/
theorem grown_of_isTerminal {s : Sequence} (h : isTerminal s = true) (generations : Nat) :
    grown s generations = s := by
  cases generations <;> simp [grown, h]

/-- Every generation grows from the one before, also when the sequence has stopped growing. -/
theorem grown_succ (s : Sequence) (generations : Nat) :
    grown s (generations + 1) = grown (grow s) generations := by
  rw [grown]
  split
  · next h => rw [grow_of_isTerminal h, grown_of_isTerminal h]
  · rfl

/-- Generations can be grown in two goes. -/
theorem grown_add (s : Sequence) (g h : Nat) : grown s (g + h) = grown (grown s g) h := by
  induction g generalizing s with
  | zero => rw [Nat.zero_add, grown_zero]
  | succ g ih => rw [Nat.succ_add, grown_succ, ih, grown_succ]

end Ribbon.Sequence

namespace Ribbon

/-! ## Reversal

The same curve walked from its end to its start: the symbols in reverse order, with the two
strokes and the two turns exchanged.
-/

namespace Symbol

/-- The symbol met in place of another when the curve is walked backwards. -/
def mirror : Symbol → Symbol
  | forwardA => forwardB
  | forwardB => forwardA
  | turnLeft => turnRight
  | turnRight => turnLeft

/-- Symbols are exchanged in pairs. -/
@[simp]
theorem mirror_mirror (s : Symbol) : s.mirror.mirror = s := by
  cases s <;> rfl

end Symbol

namespace Sequence

/-- The sequence that walks a curve backwards. -/
def reversal (s : Sequence) : Sequence :=
  (s.map Symbol.mirror).reverse

/-- The second part is met first. -/
@[simp]
theorem reversal_append (s t : Sequence) : reversal (s ++ t) = reversal t ++ reversal s := by
  simp [reversal]

/-- The first symbol is met last. -/
theorem reversal_cons (a : Symbol) (s : Sequence) : reversal (a :: s) = reversal s ++ [a.mirror] :=
  reversal_append [a] s

/-- Reversing twice changes nothing. -/
@[simp]
theorem reversal_reversal (s : Sequence) : reversal (reversal s) = s := by
  simp only [reversal, List.map_reverse, List.reverse_reverse, List.map_map]
  exact (List.map_congr_left fun a _ => Symbol.mirror_mirror a).trans (List.map_id _)

end Sequence

end Ribbon
