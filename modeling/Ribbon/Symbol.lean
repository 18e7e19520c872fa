/-!
# Symbols

The alphabet of the curve: two strokes and two quarter turns. The strokes look alike when they
are drawn and differ in what they grow into; the turns grow into themselves.

## Main definitions

* `Ribbon.Symbol` — the four symbols.
* `Ribbon.Symbol.char`, `Ribbon.Symbol.ofChar?` — the one-character notation.
* `Ribbon.Symbol.code`, `Ribbon.Symbol.ofCode?` — the codes `0` to `3`.
* `Ribbon.Symbol.production` — what a symbol becomes in the next generation.

## Main results

* `Ribbon.Symbol.ofChar?_eq_some_iff`, `Ribbon.Symbol.ofCode?_eq_some_iff` — each notation is
  read exactly as it is written.
-/

set_option relaxedAutoImplicit false
set_option autoImplicit false

namespace Ribbon

/-- A letter of the curve. -/
inductive Symbol where
  /-- A stroke that grows a block of smaller strokes on its left-hand side. -/
  | forwardA
  /-- A stroke that grows a block of smaller strokes on its right-hand side. -/
  | forwardB
  /-- A quarter turn to the next heading. -/
  | turnLeft
  /-- A quarter turn to the previous heading. -/
  | turnRight
  deriving DecidableEq

namespace Symbol

/-- All symbols in the order of their codes. -/
def all : List Symbol := [forwardA, forwardB, turnLeft, turnRight]

/-- Every symbol is listed in `all`. -/
theorem mem_all (s : Symbol) : s ∈ all := by
  cases s <;> simp [all]

/-- Strokes move the turtle; turns do not. -/
def isForward : Symbol → Bool
  | forwardA | forwardB => true
  | turnLeft | turnRight => false

/-! ### Notation -/

/-- The character that stands for a symbol. -/
def char : Symbol → Char
  | forwardA => 'L'
  | forwardB => 'R'
  | turnLeft => '+'
  | turnRight => '-'

/-- The symbol a character stands for, if any. -/
def ofChar? : Char → Option Symbol
  | 'L' => some forwardA
  | 'R' => some forwardB
  | '+' => some turnLeft
  | '-' => some turnRight
  | _ => none

/-- A character is read as the symbol that is written with it. -/
theorem ofChar?_eq_some_iff {c : Char} {s : Symbol} : ofChar? c = some s ↔ c = s.char := by
  constructor
  · intro h
    unfold ofChar? at h
    split at h <;> simp_all [char] <;> subst h <;> rfl
  · rintro rfl
    cases s <;> rfl

/-- The code that stands for a symbol. -/
def code : Symbol → UInt8
  | forwardA => 0
  | forwardB => 1
  | turnLeft => 2
  | turnRight => 3

/-- The symbol a code stands for, if any. -/
def ofCode? (code : UInt8) : Option Symbol :=
  all[code.toNat]?

/-- A code is read as the symbol that has it. -/
theorem ofCode?_eq_some_iff {c : UInt8} {s : Symbol} : ofCode? c = some s ↔ c = s.code := by
  constructor
  · intro h
    obtain ⟨hlt, hs⟩ := List.getElem?_eq_some_iff.1 h
    have hc : c.toNat = 0 ∨ c.toNat = 1 ∨ c.toNat = 2 ∨ c.toNat = 3 := by
      simp only [all, List.length_cons, List.length_nil] at hlt
      omega
    apply UInt8.toNat_inj.1
    rcases hc with h | h | h | h <;> simp only [h] at hs ⊢ <;> subst hs <;> rfl
  · rintro rfl
    cases s <;> rfl

/-- The name of a symbol in written documents. -/
def name : Symbol → String
  | forwardA => "ForwardA"
  | forwardB => "ForwardB"
  | turnLeft => "TurnLeft"
  | turnRight => "TurnRight"

/-- The symbol of a name, if any. -/
def ofName? (name : String) : Option Symbol :=
  all.find? (·.name == name)

/-! ### Productions -/

/-- What a stroke of the first kind grows into: 25 strokes that fill a block of `5 × 5` cells. -/
def productionA : List Symbol :=
  [forwardA, forwardA, turnRight, forwardB, turnRight, forwardB, turnLeft, forwardA, turnLeft,
   forwardA, turnRight, forwardB, turnRight, forwardB, forwardA, turnLeft, forwardB, turnLeft,
   forwardA, forwardA, forwardB, turnRight, forwardA, turnLeft, forwardB, turnLeft, forwardA,
   forwardA, turnLeft, forwardB, turnRight, forwardA, forwardB, turnRight, forwardB, turnRight,
   forwardA, turnLeft, forwardA, turnLeft, forwardB, forwardB, turnRight]

/-- What a stroke of the second kind grows into: 25 strokes that fill a block of `5 × 5` cells
on the other side. -/
def productionB : List Symbol :=
  [turnLeft, forwardA, forwardA, turnRight, forwardB, turnRight, forwardB, turnLeft, forwardA,
   turnLeft, forwardA, forwardB, turnLeft, forwardA, turnRight, forwardB, forwardB, turnRight,
   forwardA, turnRight, forwardB, turnLeft, forwardA, forwardB, forwardB, turnRight, forwardA,
   turnRight, forwardB, forwardA, turnLeft, forwardA, turnLeft, forwardB, turnRight, forwardB,
   turnRight, forwardA, turnLeft, forwardA, turnLeft, forwardB, forwardB]

/-- What a symbol becomes in the next generation; a turn stays as it is. -/
def production : Symbol → List Symbol
  | forwardA => productionA
  | forwardB => productionB
  | turnLeft => [turnLeft]
  | turnRight => [turnRight]

/-- The number of symbols that either stroke grows into. -/
def productionLength : Nat := 43

/-- Both strokes grow into `productionLength` symbols. -/
theorem length_production {s : Symbol} (h : s.isForward = true) :
    s.production.length = productionLength := by
  cases s with
  | forwardA | forwardB => rfl
  | turnLeft | turnRight => cases h

end Symbol

end Ribbon
