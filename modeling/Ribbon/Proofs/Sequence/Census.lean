import Mathlib.Algebra.Order.Ring.Nat
import Mathlib.Logic.Function.Iterate
import Mathlib.Tactic.Positivity
import Mathlib.Tactic.Ring
import Ribbon.Sequence.Census

/-!
# The census is exact up to its limit

Strokes by kind follow a linear recurrence from one generation to the next. The census runs this
recurrence on counts that stop at a limit, and leaves it early when nothing can change any more.
Neither is seen in the total: it is the number of strokes of the grown sequence, or the limit where
that number is larger.

## Main definitions

* `Ribbon.Sequence.Strokes.grow` — the recurrence in exact arithmetic.

## Main results

* `Ribbon.Sequence.strokesOf_grown` — the recurrence counts the strokes of every generation.
* `Ribbon.Sequence.strokes_grown_eq_mul` — every generation has 25 times as many strokes.
* `Ribbon.Sequence.Strokes.totalAfter_eq_min` — the limited counts have the exact total.
* `Ribbon.Sequence.census_exact_up_to_limit` — the census of a sequence.
-/

set_option relaxedAutoImplicit false
set_option autoImplicit false

namespace Ribbon.Sequence

/-! ## Strokes by kind -/

/-- Every stroke is of one of the two kinds. -/
lemma strokes_eq_add (s : Sequence) : strokes s = (Strokes.of s).a + (Strokes.of s).b := by
  induction s with
  | nil => rfl
  | cons a s ih =>
    rw [strokes_cons, ih]
    cases a <;> simp [Strokes.of, Symbol.isForward] <;> omega

namespace Strokes

/-- The strokes in the next generation, by exact arithmetic. -/
def grow (n : Strokes) : Strokes where
  a := n.a * Symbol.productionA.count .forwardA + n.b * Symbol.productionB.count .forwardA
  b := n.a * Symbol.productionA.count .forwardB + n.b * Symbol.productionB.count .forwardB

/-- The strokes of the first kind in either production. -/
lemma count_forwardA_production :
    Symbol.productionA.count .forwardA = 13 ∧ Symbol.productionB.count .forwardA = 12 := by
  decide

/-- The strokes of the second kind in either production. -/
lemma count_forwardB_production :
    Symbol.productionA.count .forwardB = 12 ∧ Symbol.productionB.count .forwardB = 13 := by
  decide

/-- The recurrence with its coefficients. -/
lemma grow_eq (n : Strokes) : n.grow = ⟨n.a * 13 + n.b * 12, n.a * 12 + n.b * 13⟩ := by
  simp only [grow, count_forwardA_production, count_forwardB_production]

/-- The recurrence counts the strokes of the next generation. -/
lemma of_grow (s : Sequence) : of (Sequence.grow s) = (of s).grow := by
  obtain ⟨hAA, hBA⟩ := count_forwardA_production
  obtain ⟨hAB, hBB⟩ := count_forwardB_production
  rw [grow_eq]
  induction s with
  | nil => rfl
  | cons a s ih =>
    simp only [of, mk.injEq] at ih ⊢
    obtain ⟨iha, ihb⟩ := ih
    rw [grow_cons, List.count_append, List.count_append, iha, ihb]
    cases a with
    | forwardA => simp [Symbol.production, hAA, hAB]; omega
    | forwardB => simp [Symbol.production, hBA, hBB]; omega
    | turnLeft | turnRight => simp [Symbol.production]

/-- Every stroke grows into 25 strokes. -/
lemma total_grow (n : Strokes) : n.grow.a + n.grow.b = 25 * (n.a + n.b) := by
  rw [grow_eq]
  ring

/-- The exact total of any generation. -/
lemma total_iterate_grow (n : Strokes) (generations : Nat) :
    (grow^[generations] n).a + (grow^[generations] n).b = 25 ^ generations * (n.a + n.b) := by
  induction generations generalizing n with
  | zero => simp
  | succ g ih =>
    rw [Function.iterate_succ_apply, ih, total_grow, pow_succ]
    ring

/-! ## Counts that stop at the limit -/

/-- A step of the census is a step of the recurrence, cut off at the limit in either kind. -/
lemma next_eq (n : Strokes) :
    n.next = ⟨min Count.limit n.grow.a, min Count.limit n.grow.b⟩ := by
  simp only [next, grow, Count.add, Count.mul, mk.injEq]
  omega

/-- A multiple of the total does not show whether the kinds were cut off before they were added. -/
lemma min_mul_cutOff (m l a b : Nat) (hm : 0 < m) :
    min l (m * (min l a + min l b)) = min l (m * (a + b)) := by
  by_cases h : a ≤ l ∧ b ≤ l
  · rw [Nat.min_eq_right h.1, Nat.min_eq_right h.2]
  · have hcut : l ≤ min l a + min l b := by omega
    have hsum : l ≤ a + b := by omega
    rw [Nat.min_eq_left (hcut.trans (Nat.le_mul_of_pos_left _ hm)),
      Nat.min_eq_left (hsum.trans (Nat.le_mul_of_pos_left _ hm))]

/-- A settled count has the total of every later generation.

**Proof sketch.** Without strokes all totals are zero. A full count is at the limit, and the exact
totals, which only grow, lie above it. -/
lemma min_pow_mul_of_isSettled {n : Strokes} (h : n.isSettled = true) (generations : Nat) :
    min Count.limit (25 ^ generations * (n.a + n.b)) = n.total := by
  simp only [isSettled, Bool.or_eq_true, Bool.and_eq_true, decide_eq_true_eq] at h
  rcases h with ⟨ha, hb⟩ | hfull
  · simp [total, Count.add, ha, hb]
  · have hle : Count.limit ≤ n.a + n.b := by
      rw [← hfull]
      exact Nat.min_le_right _ _
    rw [hfull]
    exact Nat.min_eq_left (hle.trans (Nat.le_mul_of_pos_left _ (by positivity)))

/-- **The limited counts have the exact total**, cut off once at the end.

**Proof sketch.** Induction on the generations. A settled count already has the total of the last
generation (`min_pow_mul_of_isSettled`). Otherwise the step is cut off in either kind (`next_eq`),
which the total does not show (`min_mul_cutOff`). -/
theorem totalAfter_eq_min (n : Strokes) (generations : Nat) :
    n.totalAfter generations =
      min Count.limit ((grow^[generations] n).a + (grow^[generations] n).b) := by
  rw [total_iterate_grow]
  induction generations generalizing n with
  | zero => simp [totalAfter, total, Count.add]
  | succ g ih =>
    rw [totalAfter]
    split
    · next h => exact (min_pow_mul_of_isSettled h (g + 1)).symm
    · rw [ih, next_eq, min_mul_cutOff _ _ _ _ (by positivity), total_grow, pow_succ, mul_assoc]

end Strokes

/-! ## The census of a sequence -/

/-- The recurrence counts the strokes of every generation. -/
theorem strokesOf_grown (s : Sequence) (generations : Nat) :
    Strokes.of (s.grown generations) = Strokes.grow^[generations] (Strokes.of s) := by
  induction generations generalizing s with
  | zero => rw [grown_zero, Function.iterate_zero_apply]
  | succ g ih => rw [grown_succ, ih, Strokes.of_grow, Function.iterate_succ_apply]

/-- The strokes of every generation, by the recurrence. -/
lemma strokes_grown (s : Sequence) (generations : Nat) :
    (s.grown generations).strokes =
      (Strokes.grow^[generations] (Strokes.of s)).a +
        (Strokes.grow^[generations] (Strokes.of s)).b := by
  rw [strokes_eq_add, strokesOf_grown]

/-- Every generation has 25 times as many strokes as the one before. -/
theorem strokes_grown_eq_mul (s : Sequence) (generations : Nat) :
    (s.grown generations).strokes = 25 ^ generations * s.strokes := by
  rw [strokes_grown, Strokes.total_iterate_grow, ← strokes_eq_add]

/-- The census gives the strokes of every generation, up to the limit. -/
lemma strokesAfter_eq_min (s : Sequence) (generations : Nat) :
    s.strokesAfter generations = min Count.limit (s.grown generations).strokes := by
  rw [strokesAfter, Strokes.totalAfter_eq_min, strokes_grown]

/-- **The census is exact up to its limit.** After any number of generations it gives the number of
strokes of the grown sequence, or the largest 64-bit count where that number is larger. The number
itself is what the recurrence gives in exact arithmetic, so neither the limit on its sums and
products nor the early end changes the result. -/
theorem census_exact_up_to_limit (s : Sequence) (generations : Nat) :
    s.strokesAfter generations = min (2 ^ 64 - 1) (s.grown generations).strokes ∧
      (s.grown generations).strokes =
        (Strokes.grow^[generations] (Strokes.of s)).a +
          (Strokes.grow^[generations] (Strokes.of s)).b :=
  ⟨strokesAfter_eq_min s generations, strokes_grown s generations⟩

end Ribbon.Sequence
