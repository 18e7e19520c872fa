import Ribbon.Sequence

/-!
# Census

How many strokes a sequence will hold after some generations, without building it. Counts are
64-bit: one that would be larger stays at the largest.

## Main definitions

* `Ribbon.Count.limit`, `Ribbon.Count.add`, `Ribbon.Count.mul` — counts that stop at a limit.
* `Ribbon.Sequence.strokes` — the number of strokes of a sequence.
* `Ribbon.Sequence.strokesAfter` — the number of strokes after some generations.
-/

set_option relaxedAutoImplicit false
set_option autoImplicit false

namespace Ribbon

namespace Count

/-- The largest count. -/
def limit : Nat := UInt64.size - 1

/-- The sum of two counts, or the limit if it is less. -/
def add (m n : Nat) : Nat := min limit (m + n)

/-- The product of two counts, or the limit if it is less. -/
def mul (m n : Nat) : Nat := min limit (m * n)

end Count

namespace Sequence

/-- The number of strokes of a sequence. -/
def strokes (s : Sequence) : Nat :=
  s.countP Symbol.isForward

/-- An empty sequence has no stroke. -/
@[simp]
theorem strokes_nil : strokes [] = 0 := rfl

/-- A symbol in front counts if it is a stroke. -/
theorem strokes_cons (a : Symbol) (s : Sequence) :
    strokes (a :: s) = strokes s + if a.isForward then 1 else 0 :=
  List.countP_cons

/-- Strokes are counted part by part. -/
@[simp]
theorem strokes_append (s t : Sequence) : strokes (s ++ t) = strokes s + strokes t :=
  List.countP_append

/-- How many strokes of either kind there are. -/
structure Strokes where
  /-- The strokes of the first kind. -/
  a : Nat
  /-- The strokes of the second kind. -/
  b : Nat
  deriving DecidableEq

namespace Strokes

/-- The strokes in a sequence, by kind. -/
def of (s : Sequence) : Strokes where
  a := s.count .forwardA
  b := s.count .forwardB

/-- Both kinds together. -/
def total (n : Strokes) : Nat :=
  Count.add n.a n.b

/-- The strokes in the next generation: each kind comes from both productions. -/
def next (n : Strokes) : Strokes where
  a := Count.add (Count.mul n.a (Symbol.productionA.count .forwardA))
    (Count.mul n.b (Symbol.productionB.count .forwardA))
  b := Count.add (Count.mul n.a (Symbol.productionA.count .forwardB))
    (Count.mul n.b (Symbol.productionB.count .forwardB))

/-- No strokes stay no strokes, and a full count stays full. -/
def isSettled (n : Strokes) : Bool :=
  (n.a = 0 && n.b = 0) || n.total = Count.limit

/-- The total after some generations; a settled count is not taken further. -/
def totalAfter : Strokes → Nat → Nat
  | n, 0 => n.total
  | n, generations + 1 => if n.isSettled then n.total else totalAfter n.next generations

end Strokes

/-- The number of strokes after some generations, at most `Count.limit`. -/
def strokesAfter (s : Sequence) (generations : Nat) : Nat :=
  (Strokes.of s).totalAfter generations

end Sequence

end Ribbon
