import Mathlib.Algebra.Order.Field.Rat
import Mathlib.Tactic.Linarith
import Ribbon.Proofs.Sequence.Census
import Ribbon.Proofs.Sequence.Leads

/-!
# What growth makes of a sequence

A grown sequence is made of one block for every symbol it started with. The blocks have known numbers of
symbols of each kind, and so has the sequence.

## Main results

* `Ribbon.Sequence.grown_append` — parts of a sequence grow on their own.
* `Ribbon.Sequence.grown_eq_flatMap` — a grown sequence is made of the blocks of its symbols.
* `Ribbon.Sequence.grown_blocks` — both, and generations grown in two goes.
* `Ribbon.Sequence.count_grow` — the turns of one kind in the next generation.
* `Ribbon.Sequence.count_grown` — the turns of one kind in every generation.
* `Ribbon.Sequence.turns_grown` — all turns of every generation.
* `Ribbon.Sequence.length_grown` — the symbols of every generation.
* `Ribbon.Sequence.length_grown_le` — a bound by the strokes of the generation alone.
* `Ribbon.Sequence.Strokes.excess_grow` — the excess of the strokes of the first kind.
* `Ribbon.Sequence.composition_grown` — the symbols of each kind in every generation.
-/

set_option relaxedAutoImplicit false
set_option autoImplicit false

namespace Ribbon.Sequence

/-! ## Growth, block by block

A symbol grows without regard to its neighbours. After any number of generations the sequence is made
of blocks, one for every symbol of the first sequence and in the same order, and a block depends on
its symbol and on the number of generations only. Growing on from there treats the symbols of a block
in the same way.
-/

/-- Parts of a sequence grow on their own.

**Proof sketch.** Induction on the generations. The next generation of both parts is that of the one
followed by that of the other (`grow_append`), so the induction hypothesis is needed for other parts
than those given. -/
theorem grown_append (s t : Sequence) (generations : Nat) :
    (s ++ t).grown generations = s.grown generations ++ t.grown generations := by
  induction generations generalizing s t with
  | zero => simp only [grown_zero]
  | succ g ih => rw [grown_succ, grow_append, ih, grown_succ, grown_succ]

/-- The block of the first symbol comes first. -/
lemma grown_cons (a : Symbol) (s : Sequence) (generations : Nat) :
    grown (a :: s) generations = grown [a] generations ++ s.grown generations :=
  grown_append [a] s generations

/-- A grown sequence is made of the blocks of its symbols. -/
theorem grown_eq_flatMap (s : Sequence) (generations : Nat) :
    s.grown generations = s.flatMap fun a => grown [a] generations := by
  induction s with
  | nil => exact grown_of_isTerminal rfl generations
  | cons a s ih => rw [grown_cons, ih, List.flatMap_cons]

/-- **Growth goes block by block.** Parts of a sequence grow on their own, and generations can be
grown in two goes. So a grown sequence is made of one block for every symbol, in the order of the
symbols; wherever a symbol stands, its block begins where all that stands before the symbol has
grown to; and the blocks of later generations are made of the blocks that the symbols of a block
grow into. -/
theorem grown_blocks (s t : Sequence) (g h : Nat) :
    (s ++ t).grown g = s.grown g ++ t.grown g ∧
      s.grown (g + h) = (s.grown g).grown h ∧
      s.grown g = s.flatMap (fun a => grown [a] g) ∧
      (∀ (u v : Sequence) (a : Symbol),
        (u ++ a :: v).grown g = u.grown g ++ (grown [a] g ++ v.grown g)) ∧
      ∀ a : Symbol, grown [a] (g + h) = (grown [a] g).flatMap fun b => grown [b] h := by
  refine ⟨grown_append s t g, grown_add s g h, grown_eq_flatMap s g, ?_, ?_⟩
  · intro u v a
    rw [grown_append, grown_cons]
  · intro a
    rw [grown_add, grown_eq_flatMap]

/-! ## The length of a grown sequence

Turns are never replaced, and every stroke brings 18 new ones when it grows, nine of either kind. So
the turns of a generation are those of the sequence and those of all the strokes before, and they
stay in proportion to the strokes: however many generations there are, fewer than three new turns
come on four strokes.
-/

/-- Every symbol is a stroke or a turn. -/
lemma length_eq_strokes_add_turns (s : Sequence) : s.length = s.strokes + s.turns := by
  have hnot : (fun a => decide ¬Symbol.isForward a = true) = fun a => !Symbol.isForward a := by
    funext a
    simp
  rw [strokes, turns, List.length_eq_countP_add_countP Symbol.isForward, hnot]

/-- Every turn is of one of the two kinds. -/
lemma turns_eq_add (s : Sequence) : turns s = s.count .turnLeft + s.count .turnRight := by
  induction s with
  | nil => rfl
  | cons a s ih =>
    have hcons : turns (a :: s) = turns [a] + turns s := turns_append [a] s
    rw [hcons, ih]
    cases a <;> simp [turns, Symbol.isForward] <;> omega

/-! ### Turns of one kind -/

section

variable {t : Symbol} (ht : t.isForward = false)

include ht

/-- Either stroke brings nine turns of either kind. -/
lemma count_production {a : Symbol} (ha : a.isForward = true) : a.production.count t = 9 := by
  cases t with
  | forwardA | forwardB => cases ht
  | turnLeft | turnRight =>
    cases a with
    | forwardA | forwardB => decide
    | turnLeft | turnRight => cases ha

/-- The turns of the next generation are kept, and every stroke brings nine more of either kind. -/
theorem count_grow (s : Sequence) : (grow s).count t = s.count t + 9 * s.strokes := by
  induction s with
  | nil => rfl
  | cons a s ih =>
    rw [grow_cons, List.count_append, ih, List.count_cons, strokes_cons]
    by_cases ha : a.isForward = true
    · have hne : a ≠ t := by
        rintro rfl
        rw [ha] at ht
        cases ht
      rw [count_production ht ha, beq_false_of_ne hne, if_pos ha, if_neg Bool.false_ne_true]
      omega
    · have hself : a.production = [a] := by
        cases a with
        | forwardA | forwardB => exact absurd rfl ha
        | turnLeft | turnRight => rfl
      rw [hself, List.count_singleton, if_neg ha]
      omega

/-- **The turns of one kind in every generation.** The strokes of all generations before make a
geometric sum, so that three new turns of a kind come on every eight strokes that are new.

**Proof sketch.** Induction on the generations: the next one has nine turns more for every stroke,
which is three eighths of the 24 strokes that it has more. -/
theorem count_grown (s : Sequence) (generations : Nat) :
    8 * (s.grown generations).count t + 3 * s.strokes =
      8 * s.count t + 3 * (s.grown generations).strokes := by
  induction generations generalizing s with
  | zero => simp
  | succ g ih =>
    have hstep : strokes (grow s) = 25 * strokes s := by
      simpa [grown_succ] using strokes_grown_eq_mul s 1
    have hrest := ih (grow s)
    rw [count_grow ht, hstep] at hrest
    rw [grown_succ]
    omega

end

/-! ### All symbols -/

/-- The turns of every generation: three new turns come on every four strokes that are new. -/
theorem turns_grown (s : Sequence) (generations : Nat) :
    4 * turns (s.grown generations) + 3 * s.strokes =
      4 * s.turns + 3 * (s.grown generations).strokes := by
  have hleft := count_grown (t := .turnLeft) rfl s generations
  have hright := count_grown (t := .turnRight) rfl s generations
  rw [turns_eq_add, turns_eq_add]
  omega

/-- **The symbols of every generation**, by the strokes and turns of the sequence. -/
theorem length_grown (s : Sequence) (generations : Nat) :
    4 * (s.grown generations).length + 3 * s.strokes =
      4 * s.turns + 7 * (25 ^ generations * s.strokes) := by
  have hturns := turns_grown s generations
  rw [length_eq_strokes_add_turns, ← strokes_grown_eq_mul]
  omega

/-- No generation has fewer strokes than one before. -/
lemma strokes_grown_mono (s : Sequence) {g h : Nat} (hle : g ≤ h) :
    (s.grown g).strokes ≤ (s.grown h).strokes := by
  rw [strokes_grown_eq_mul, strokes_grown_eq_mul]
  exact Nat.mul_le_mul_right _ (Nat.pow_le_pow_right (by decide) hle)

/-- A generation has at most seven quarters as many symbols as it has strokes, the turns of the
sequence apart. -/
theorem length_grown_le (s : Sequence) (generations : Nat) :
    4 * (s.grown generations).length ≤ 4 * s.turns + 7 * (s.grown generations).strokes := by
  have hlength := length_grown s generations
  rw [strokes_grown_eq_mul]
  omega

/-! ## What a grown sequence is made of

Two facts decide how many symbols of each kind a generation has. The strokes of both kinds together
become 25 times as many from one generation to the next, while the excess of one kind over the other
stays as it is. And the new turns of either kind stay in proportion to the new strokes.
-/

namespace Strokes

/-- Strokes of the first kind are in excess by as many in the next generation: either production has
one stroke more of its own kind than of the other. -/
theorem excess_grow (n : Strokes) : (n.grow.a : ℤ) - n.grow.b = n.a - n.b := by
  rw [grow_eq]
  push_cast
  ring

/-- Strokes of the first kind are in excess by as many in every generation. -/
lemma excess_iterate_grow (n : Strokes) (generations : ℕ) :
    ((grow^[generations] n).a : ℤ) - (grow^[generations] n).b = n.a - n.b := by
  induction generations generalizing n with
  | zero => rfl
  | succ g ih => rw [Function.iterate_succ_apply, ih, excess_grow]

end Strokes

/-- Growing leaves the excess of the strokes of the first kind as it is. -/
lemma excess_grown (s : Sequence) (generations : ℕ) :
    ((s.grown generations).count .forwardA : ℤ) - (s.grown generations).count .forwardB =
      s.count .forwardA - s.count .forwardB := by
  have hexcess := Strokes.excess_iterate_grow (Strokes.of s) generations
  rw [← strokesOf_grown] at hexcess
  exact hexcess

/-- The next generation has the length that is made out before it is grown. -/
lemma growLength_grown (s : Sequence) (generations : ℕ) :
    growLength (s.grown generations) = (s.grown (generations + 1)).length := by
  rw [← length_grow, grown_add, grown_succ, grown_zero]

/-- **What a grown sequence is made of.** After any number of generations, either kind of stroke is
half of all strokes, give or take half of what the sequence itself has more of the first kind; to the
turns of either kind have come three eighths of the strokes that are new; and the length is the sum of
all these. The length of the next generation is made out exactly before it is grown.

The fractions are those of rational numbers, so nothing is rounded.

**Proof sketch.** The strokes of the two kinds are known by their sum and their difference
(`strokes_grown_eq_mul`, `excess_grown`), the turns by `count_grown`, the length by `length_grown`. -/
theorem composition_grown (s : Sequence) (generations : ℕ) :
    s.strokes = s.count .forwardA + s.count .forwardB ∧
      ((s.grown generations).count .forwardA : ℚ) =
        (s.strokes * 25 ^ generations + (s.count .forwardA - s.count .forwardB)) / 2 ∧
      ((s.grown generations).count .forwardB : ℚ) =
        (s.strokes * 25 ^ generations - (s.count .forwardA - s.count .forwardB)) / 2 ∧
      ((s.grown generations).count .turnLeft : ℚ) =
        s.count .turnLeft + 3 * s.strokes * (25 ^ generations - 1) / 8 ∧
      ((s.grown generations).count .turnRight : ℚ) =
        s.count .turnRight + 3 * s.strokes * (25 ^ generations - 1) / 8 ∧
      ((s.grown generations).length : ℚ) =
        s.count .turnLeft + s.count .turnRight + s.strokes * (7 * 25 ^ generations - 3) / 4 ∧
      growLength (s.grown generations) = (s.grown (generations + 1)).length := by
  have hstrokes : (s.grown generations).strokes = 25 ^ generations * s.strokes :=
    strokes_grown_eq_mul s generations
  have htotal : ((s.grown generations).count .forwardA : ℚ) +
      (s.grown generations).count .forwardB = 25 ^ generations * s.strokes := by
    have hkinds := strokes_eq_add (s.grown generations)
    rw [hstrokes] at hkinds
    exact_mod_cast hkinds.symm
  have hexcess : ((s.grown generations).count .forwardA : ℚ) -
      (s.grown generations).count .forwardB = s.count .forwardA - s.count .forwardB := by
    exact_mod_cast excess_grown s generations
  have hturns (t : Symbol) (ht : t.isForward = false) :
      8 * ((s.grown generations).count t : ℚ) + 3 * s.strokes =
        8 * s.count t + 3 * (25 ^ generations * s.strokes) := by
    have hcount := count_grown ht s generations
    rw [hstrokes] at hcount
    exact_mod_cast hcount
  have hleft := hturns .turnLeft rfl
  have hright := hturns .turnRight rfl
  have hlength : 4 * ((s.grown generations).length : ℚ) + 3 * s.strokes =
      4 * (s.count .turnLeft + s.count .turnRight) + 7 * (25 ^ generations * s.strokes) := by
    have hsymbols := length_grown s generations
    rw [turns_eq_add] at hsymbols
    exact_mod_cast hsymbols
  refine ⟨strokes_eq_add s, ?_, ?_, ?_, ?_, ?_, growLength_grown s generations⟩ <;> linarith

end Ribbon.Sequence
