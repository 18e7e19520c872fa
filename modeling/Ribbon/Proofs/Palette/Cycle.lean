import Ribbon.Palette
import Ribbon.Proofs.Binary.Remainder

/-!
# Indices on the cycle of colours

Moving a colour index along the cycle, and wrapping any index onto it, with all roundings.

## Main definitions

* `Ribbon.Palette.OnCycle` — the indices from zero up to the number of stops.
* `Ribbon.Palette.Absorbs` — the negative indices that are lost in a sum with the period.

## Main results

* `Ribbon.Palette.period_spec` — the length of the cycle is the number of stops.
* `Ribbon.Palette.onCycle_iff` — the same indices by comparisons in single precision.
* `Ribbon.Palette.value_shift` — where a move along the cycle ends.
* `Ribbon.Palette.OnCycle.iterate_shift` — any number of moves stays on the cycle.
* `Ribbon.Palette.wrap_spec` — the wrapped index is the rounded remainder.
* `Ribbon.Palette.wrap_lt_period_iff` — which indices are wrapped below the period.
* `Ribbon.Palette.wrap_wrap_eq_iff` — when wrapping again changes nothing.
* `Ribbon.Palette.wrap_extent` — where indices and moves end up.
-/

set_option relaxedAutoImplicit false
set_option autoImplicit false

namespace Ribbon.Palette

open Binary32 (value)

/-! ## Moving along the cycle of colours

A colour index that lies on the cycle stays there when it is moved ahead. The sum may be rounded, and it
may be as large as single precision allows, but it is finite and not negative, so that the wrapped index
is the exact remainder of the rounded sum.
-/

section

open Binary (approx greatest residue residue_nonneg residue_lt)

/-- The index is a number on the cycle: from zero on, and less than the number of stops. -/
structure OnCycle (p : Palette) (i : Float32) : Prop where
  isFinite : i.isFinite = true
  nonneg : 0 ≤ value i
  lt_size : value i < p.size

/-- The cycle starts at zero. -/
lemma onCycle_zero (p : Palette) : p.OnCycle 0 := by
  refine ⟨by rfl, ?_, ?_⟩
  · rw [Binary32.value_zero]
  · rw [Binary32.value_zero]
    exact_mod_cast p.size_pos

variable {p : Palette} (hsize : p.size ≤ 2 ^ 24) {i d : Float32}

include hsize

/-- The length of the cycle is the number of stops, as long as that is a number of the format. -/
theorem period_spec : p.period.isFinite = true ∧ value p.period = p.size :=
  Binary32.toFloat32_spec hsize

/-- The cycle is not empty. -/
lemma value_period_pos : 0 < value p.period := by
  rw [(period_spec hsize).2]
  exact_mod_cast p.size_pos

/-- On the cycle are the finite numbers between zero and the length of the cycle. -/
theorem onCycle_iff : p.OnCycle i ↔ i.isFinite = true ∧ 0 ≤ i ∧ i < p.period := by
  obtain ⟨hfinite, hvalue⟩ := period_spec hsize
  constructor
  · rintro ⟨hi, hnonneg, hlt⟩
    rw [Binary32.le_iff (by rfl) hi, Binary32.lt_iff hi hfinite, Binary32.value_zero, hvalue]
    exact ⟨hi, hnonneg, hlt⟩
  · rintro ⟨hi, hnonneg, hlt⟩
    rw [Binary32.le_iff (by rfl) hi, Binary32.value_zero] at hnonneg
    rw [Binary32.lt_iff hi hfinite, hvalue] at hlt
    exact ⟨hi, hnonneg, hlt⟩

/-- A move from an index on the cycle is not too long for single precision: the index is less than half
a unit in the last place of the greatest number. -/
lemma OnCycle.abs_approx_add_le (hi : p.OnCycle i) (hd : 0 ≤ value d) :
    |approx .binary32 (value i + value d)| ≤ greatest .binary32 := by
  have hcast : (p.size : ℚ) ≤ 2 ^ 24 := by exact_mod_cast hsize
  have hmost := (abs_le.1 (Binary32.abs_value_le d)).2
  have hhalf : (2 : ℚ) ^ 24 ≤ 2 ^ Binary.maxExponent .binary32 / 2 := by decide +kernel
  refine Binary.abs_approx_le_greatest (by decide) ?_
  rw [abs_of_nonneg (add_nonneg hi.nonneg hd)]
  have hlt := hi.lt_size
  linarith

/-- **Where a move along the cycle ends**: at the remainder of the rounded sum. -/
theorem value_shift (hi : p.OnCycle i) (hfinite : d.isFinite = true) (hd : 0 ≤ value d) :
    (p.shift i d).isFinite = true ∧
      value (p.shift i d) = residue p.size (Binary.rounded .binary32 (value i + value d)) := by
  have hsum := add_nonneg hi.nonneg hd
  obtain ⟨hperiod, hlength⟩ := period_spec hsize
  obtain ⟨hadd, hvalue⟩ := Binary32.add_spec hi.isFinite hfinite (hi.abs_approx_add_le hsize hd)
  rw [Binary.approx_of_nonneg _ hsum] at hvalue
  have hnonneg : 0 ≤ value (i + d) := by
    rw [hvalue]
    exact Binary.rounded_nonneg _ hsum
  have hwrap := Binary32.wrap_spec_of_nonneg hadd hperiod (value_period_pos hsize) hnonneg
  rwa [hvalue, hlength] at hwrap

/-- **One move ahead stays on the cycle.** -/
lemma OnCycle.shift (hi : p.OnCycle i) (hfinite : d.isFinite = true) (hd : 0 ≤ value d) :
    p.OnCycle (p.shift i d) := by
  obtain ⟨hshift, hvalue⟩ := value_shift hsize hi hfinite hd
  have hpos : (0 : ℚ) < p.size := by exact_mod_cast p.size_pos
  refine ⟨hshift, ?_, ?_⟩
  · rw [hvalue]
    exact residue_nonneg hpos _
  · rw [hvalue]
    exact residue_lt hpos _

/-- Any number of moves ahead stays on the cycle. -/
theorem OnCycle.iterate_shift (hi : p.OnCycle i) (hfinite : d.isFinite = true) (hd : 0 ≤ value d)
    (n : ℕ) : p.OnCycle ((fun j => p.shift j d)^[n] i) := by
  induction n with
  | zero => exact hi
  | succ n ih =>
    rw [Function.iterate_succ_apply']
    exact ih.shift hsize hfinite hd

end

/-! ## Wrapping an index onto the cycle

An index is wrapped to its remainder by the number of stops, and the remainder of a negative index is
one rounded sum with the period. So every finite index is wrapped to a number between zero and the
period. The period itself is reached as well, by just those negative indices that the period absorbs:
they are so small that the sum is rounded to the period. Then the wrapped index is not on the cycle,
and wrapping it again takes it back to the start.
-/

section

open Binary (approx greatest residue)

/-- The index is negative, and so small that adding it to the period gives the period again. -/
def Absorbs (p : Palette) (i : Float32) : Prop :=
  i < 0 ∧ i + p.period = p.period

instance (p : Palette) (i : Float32) : Decidable (p.Absorbs i) :=
  inferInstanceAs (Decidable (_ ∧ _))

section

variable {p : Palette} (hsize : p.size ≤ 2 ^ 24) {i : Float32} (hi : i.isFinite = true)

include hsize hi

/-- The wrapped index is the rounded remainder by the number of stops. -/
theorem wrap_spec : (p.wrap i).isFinite = true ∧
    value (p.wrap i) = approx .binary32 (residue p.size (value i)) := by
  obtain ⟨hperiod, hlength⟩ := period_spec hsize
  rw [← hlength]
  exact Binary32.wrap_spec hi hperiod (value_period_pos hsize)

/-- The wrapped index lies between zero and the number of stops. -/
lemma value_wrap_mem_Icc : value (p.wrap i) ∈ Set.Icc 0 (p.size : ℚ) := by
  obtain ⟨hperiod, hlength⟩ := period_spec hsize
  rw [← hlength]
  exact Binary32.value_wrap_mem_Icc hi hperiod (value_period_pos hsize)

/-- The same in single precision. -/
lemma wrap_mem_Icc : 0 ≤ p.wrap i ∧ p.wrap i ≤ p.period := by
  obtain ⟨hperiod, hlength⟩ := period_spec hsize
  have hfinite := (wrap_spec hsize hi).1
  rw [Binary32.le_iff (by rfl) hfinite, Binary32.le_iff hfinite hperiod, Binary32.value_zero, hlength]
  exact value_wrap_mem_Icc hsize hi

/-- The sum of a negative index and the period is not too large for single precision. -/
lemma absorbs_iff : p.Absorbs i ↔
    value i < 0 ∧ approx .binary32 (value i + value p.period) = value p.period := by
  obtain ⟨hperiod, -⟩ := period_spec hsize
  have hpos := value_period_pos hsize
  rw [Absorbs, Binary32.lt_iff hi (by rfl), Binary32.value_zero]
  refine and_congr_right fun hneg => ?_
  have hmost : |approx .binary32 (value i + value p.period)| ≤ greatest .binary32 := by
    have hhalf : (0 : ℚ) < 2 ^ Binary.maxExponent .binary32 / 2 := by positivity
    have hlow := (abs_le.1 (Binary32.abs_value_le i)).1
    have hhigh := (abs_le.1 (Binary32.abs_value_le p.period)).2
    refine Binary.abs_approx_le_greatest (by decide) (abs_lt.2 ⟨?_, ?_⟩) <;> linarith
  obtain ⟨hfinite, hvalue⟩ := Binary32.add_spec hi hperiod hmost
  rw [← hvalue]
  constructor
  · intro heq
    rw [heq]
  · intro heq
    exact Binary32.eq_of_value_eq hfinite hperiod heq (by rw [heq]; exact hpos.ne')

/-- **Which indices are wrapped below the period**: all that the period does not absorb. -/
theorem wrap_lt_period_iff : p.wrap i < p.period ↔ ¬p.Absorbs i := by
  obtain ⟨hperiod, -⟩ := period_spec hsize
  rw [Binary32.lt_iff (wrap_spec hsize hi).1 hperiod, absorbs_iff hsize hi]
  exact Binary32.value_wrap_lt_iff hi hperiod (value_period_pos hsize)

/-- **Wrapping again changes nothing** just if the wrapped index is below the period. -/
theorem wrap_wrap_eq_iff : p.wrap (p.wrap i) = p.wrap i ↔ p.wrap i < p.period := by
  obtain ⟨hperiod, -⟩ := period_spec hsize
  have hfinite := (wrap_spec hsize hi).1
  rw [Binary32.lt_iff hfinite hperiod]
  refine (Binary32.wrap_eq_self_iff hfinite hperiod (value_period_pos hsize)).trans ?_
  exact and_iff_right (value_wrap_mem_Icc hsize hi).1

end

/-- **Where indices and moves end up.** A finite index is wrapped to a number between zero and the
period. It is the period just if the period absorbs the index, and then wrapping it again gives another
number. The same holds of a move, with the rounded sum as the index. -/
theorem wrap_extent (p : Palette) (hsize : p.size ≤ 2 ^ 24) {i : Float32} (hi : i.isFinite = true) :
    ((0 ≤ p.wrap i ∧ p.wrap i ≤ p.period) ∧
      (p.wrap i < p.period ↔ ¬p.Absorbs i) ∧
      (p.wrap (p.wrap i) = p.wrap i ↔ ¬p.Absorbs i)) ∧
    ∀ d : Float32, (i + d).isFinite = true →
      (0 ≤ p.shift i d ∧ p.shift i d ≤ p.period) ∧
      (p.shift i d < p.period ↔ ¬p.Absorbs (i + d)) := by
  refine ⟨⟨wrap_mem_Icc hsize hi, wrap_lt_period_iff hsize hi, ?_⟩, fun d hsum => ?_⟩
  · exact (wrap_wrap_eq_iff hsize hi).trans (wrap_lt_period_iff hsize hi)
  · exact ⟨wrap_mem_Icc hsize hsum, wrap_lt_period_iff hsize hsum⟩

/-- The three colours and the index `-2 ^ -31`: it is wrapped to the period, wrapping it again gives
zero, and a move by it from the start of the cycle ends at the period. -/
theorem wrap_extent_tiny :
    let p := standard
    let i : Float32 := .ofBits 0xb0000000
    p.size ≤ 2 ^ 24 ∧ i.isFinite = true ∧ (0 + i).isFinite = true ∧ p.Absorbs i ∧
      ¬p.wrap i < p.period ∧ p.wrap i = 3 ∧ p.wrap (p.wrap i) ≠ p.wrap i ∧ p.wrap (p.wrap i) = 0 ∧
      ¬p.shift 0 i < p.period := by
  intro p i
  have hsize : p.size ≤ 2 ^ 24 := by decide
  have hi : i.isFinite = true := by decide +kernel
  have hsum : (0 + i).isFinite = true := by decide +kernel
  have habsorbed : p.Absorbs i := by decide +kernel
  have hmove : p.Absorbs (0 + i) := by decide +kernel
  obtain ⟨⟨-, hbelow, hagain⟩, -⟩ := wrap_extent p hsize hi
  obtain ⟨-, hmoves⟩ := wrap_extent p hsize (i := 0) (by rfl)
  exact ⟨hsize, hi, hsum, habsorbed, fun h => hbelow.1 h habsorbed, by decide +kernel,
    fun h => hagain.1 h habsorbed, by decide +kernel, fun h => (hmoves i hsum).2.1 h hmove⟩

end

end Ribbon.Palette
