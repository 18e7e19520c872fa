import Ribbon.Proofs.Decimal.Clearance
import Ribbon.Proofs.Decimal.Shortest

/-!
# The margin of the shortest decimal

The shortest decimal of a single-precision number is half-way to a neighbour, or keeps a margin to
both half-way points that is larger than two rounding errors of a double. It can be half-way only if
its digits and its power of ten are so few that a double has them exactly.

## Main definitions

* `Ribbon.Decimal.exceptional` — the decimal that comes too near to a half-way point.
* `Ribbon.Decimal.Safe` — why a decimal is read back.
* `Ribbon.Decimal.Small` — the size of the decimals of single-precision numbers.

## Main results

* `Ribbon.Decimal.Nearby.margin` — the margin.
* `Ribbon.Decimal.Nearby.simple_of_halfway` — the decimals that are half-way.
* `Ribbon.Decimal.safe_shortest` — the shortest decimal is read back, but for the exceptional one.
* `Ribbon.Decimal.rounded_rounded_exceptional` — what the nearest double would make of that one.
-/

set_option relaxedAutoImplicit false
set_option autoImplicit false

namespace Ribbon.Decimal

open Float.Model (Format)
open Ribbon.Binary (Canonical)

/-! ## The first coarse grid -/

section

variable {e : ℤ} (hmin : -149 ≤ e) (hmax : e ≤ 104)

include hmin hmax

/-- The first coarse grid is no finer than the numbers. -/
lemma two_zpow_le_coarse : (2 : ℚ) ^ e ≤ 10 ^ coarseGrid e := by
  refine Binary32.forall_exponent hmin hmax ?_
  decide +kernel

/-- The grid below is finer, and not just a little. -/
lemma fine_le_two_zpow : (10 : ℚ) ^ (coarseGrid e - 1) ≤ 2 ^ e * (1 - 8 / 2 ^ 29) := by
  refine Binary32.forall_exponent hmin hmax ?_
  decide +kernel

end

/-- The units of the grid and of the half-way points. -/
lemma exists_units (e : ℤ) :
    ∃ f : ℚ, 0 < f ∧ (gridUnits e : ℚ) = 10 ^ coarseGrid e * f ∧
      (halfUnits e : ℚ) = 2 ^ (e - 1) * f := by
  refine ⟨10 ^ (-coarseGrid e).toNat * 2 ^ (1 - e).toNat, by positivity, ?_, ?_⟩
  · rw [gridUnits]
    push_cast
    rw [pow_toNat (show (10 : ℚ) ≠ 0 by norm_num) (coarseGrid e)]
    ring
  · rw [halfUnits]
    push_cast
    rw [pow_toNat (show (2 : ℚ) ≠ 0 by norm_num) (e - 1), neg_sub]
    ring

/-- A decimal on a coarse grid, with the digits it has on the first coarse one. -/
lemma exists_digits {e : ℤ} {d : Decimal} (h : coarseGrid e ≤ d.exponent) :
    ∃ j : ℕ, d.exponent = coarseGrid e + j ∧
      d.value = (d.coefficient * 10 ^ j : ℕ) * 10 ^ coarseGrid e := by
  obtain ⟨j, hj⟩ := Int.eq_ofNat_of_zero_le (Int.sub_nonneg.2 h)
  refine ⟨j, by omega, ?_⟩
  rw [value, show d.exponent = (j : ℤ) + coarseGrid e by omega, zpow_add₀ (by norm_num),
    zpow_natCast]
  push_cast
  ring

/-- A power of five that divides a small number is small. -/
lemma lt_of_five_pow_dvd {n k : ℕ} (hn : 0 < n) (hlt : n < 2 ^ 25) (h : 5 ^ k ∣ n) : k < 11 := by
  by_contra hlarge
  have hle := Nat.le_of_dvd hn h
  have hpow := Nat.pow_le_pow_right (show 0 < 5 by decide) (not_lt.1 hlarge)
  omega

/-- A decimal with few digits on the first coarse grid is a half-way point only if the grid is near the
unit.

**Proof sketch.** The power of ten stands on one side of the equation. Its power of five is coprime to
the power of two on the other side, so it divides the multiple there, which is small. -/
lemma coarseGrid_of_meet {e : ℤ} {n m : ℕ} (hn : 0 < n) (hfew : n < 2 ^ 24) (hm : 0 < m)
    (hmost : m < 2 ^ 25) (h : n * gridUnits e = m * halfUnits e) :
    -11 < coarseGrid e ∧ coarseGrid e < 11 := by
  have hten (k : ℕ) : 10 ^ k = 5 ^ k * 2 ^ k := by rw [← Nat.mul_pow]
  have hcoprime (j k : ℕ) : (5 ^ j).Coprime (2 ^ k) := Nat.Coprime.pow _ _ (by decide)
  rw [gridUnits, halfUnits, hten, hten] at h
  rcases le_total (coarseGrid e) 0 with hneg | hpos
  · rw [Int.toNat_of_nonpos hneg, pow_zero, pow_zero, mul_one, one_mul] at h
    have hdvd : 5 ^ (-coarseGrid e).toNat ∣ n := by
      refine (hcoprime _ (1 - e).toNat).dvd_of_dvd_mul_right ?_
      rw [h]
      exact Dvd.intro (m * 2 ^ (e - 1).toNat * 2 ^ (-coarseGrid e).toNat) (by ring)
    have := lt_of_five_pow_dvd hn (by omega) hdvd
    omega
  · rw [Int.toNat_of_nonpos (neg_nonpos.2 hpos), pow_zero, pow_zero, mul_one, mul_one] at h
    have hdvd : 5 ^ (coarseGrid e).toNat ∣ m := by
      refine (hcoprime _ (e - 1).toNat).dvd_of_dvd_mul_right ?_
      rw [← h]
      exact Dvd.intro (n * 2 ^ (1 - e).toNat * 2 ^ (coarseGrid e).toNat) (by ring)
    have := lt_of_five_pow_dvd hm hmost hdvd
    omega

/-! ## The margin -/

/-- The decimal that comes too near to a half-way point. -/
def exceptional : Decimal := ⟨7038531, -32⟩

section

variable {e : ℤ} (hmin : -149 ≤ e) (hmax : e ≤ 104) {d : Decimal} (hpos : 0 < d.coefficient)
  (hcoarse : coarseGrid e ≤ d.exponent) (hle : d.value ≤ (2 ^ 25 - 1) * 2 ^ (e - 1))

include hmin hmax hle

/-- On the first coarse grid a number has fewer digits than there are mantissas. -/
lemma digits_lt {n : ℕ} (hn : d.value = n * 10 ^ coarseGrid e) : n < 2 ^ 24 := by
  have hhalf := Binary.two_zpow_eq_two_mul e
  have hpow : (0 : ℚ) < 2 ^ (e - 1) := by positivity
  have hstep := two_zpow_le_coarse hmin hmax
  rw [hhalf] at hstep
  have hsmall : (n : ℚ) * 2 * 2 ^ (e - 1) ≤ (2 ^ 25 - 1) * 2 ^ (e - 1) := by
    calc (n : ℚ) * 2 * 2 ^ (e - 1) = n * (2 * 2 ^ (e - 1)) := by ring
      _ ≤ n * 10 ^ coarseGrid e := by gcongr
      _ ≤ (2 ^ 25 - 1) * 2 ^ (e - 1) := hn ▸ hle
  have htwice : (n : ℚ) * 2 ≤ 2 ^ 25 - 1 := le_of_mul_le_mul_right hsmall hpow
  have hcast : ((n * 2 + 1 : ℕ) : ℚ) ≤ (2 ^ 25 : ℕ) := by
    push_cast
    linarith
  have := Nat.cast_le.1 hcast
  omega

include hpos hcoarse

/-- The decimals on coarse grids keep clear of the half-way points.

**Proof sketch.** Both are written with the units of the first coarse grid, where the difference is an
integer, and `clearance` says how small that can be. The exception is at home on the first coarse grid,
since its digits do not end in a zero. -/
lemma clear_of_halfway {m : ℕ} (hodd : m % 2 = 1) (hleast : leastHalf e ≤ m) (hmost : m < 2 ^ 25) :
    d.value = m * 2 ^ (e - 1) ∨ 5 / 2 ^ 29 * 2 ^ (e - 1) < |d.value - m * 2 ^ (e - 1)| ∨
      e = -107 ∧ d = exceptional := by
  obtain ⟨j, hj, hvalue⟩ := exists_digits hcoarse
  have hfew := digits_lt hmin hmax hle hvalue
  obtain ⟨f, hf, hgrid, hhalf⟩ := exists_units e
  obtain ⟨z, hz⟩ : ∃ z : ℤ, z = (d.coefficient * 10 ^ j : ℕ) * gridUnits e - m * halfUnits e :=
    ⟨_, rfl⟩
  have hdiff : (z : ℚ) = (d.value - m * 2 ^ (e - 1)) * f := by
    rw [hz, hvalue, Int.cast_sub, Int.cast_mul, Int.cast_mul, Int.cast_natCast, Int.cast_natCast,
      Int.cast_natCast, Int.cast_natCast, hgrid, hhalf]
    ring
  have hclear := clearance hmin hmax (by positivity) hfew hodd hleast hmost
  rw [← hz] at hclear
  rcases hclear with hmeet | hfar | ⟨rfl, hdigits⟩
  · rw [hmeet, Int.cast_zero, zero_eq_mul] at hdiff
    exact .inl (sub_eq_zero.1 (hdiff.resolve_right hf.ne'))
  · have hfar : (5 * halfUnits e : ℚ) < |(z : ℚ)| * 2 ^ 29 := by exact_mod_cast hfar
    rw [hdiff, hhalf, abs_mul, abs_of_pos hf] at hfar
    refine .inr (.inl (lt_of_mul_lt_mul_right ?_ hf.le))
    linarith
  · -- the digits do not end in a zero, so they stand on the first coarse grid
    have hone : j = 0 := by
      by_contra hne
      obtain ⟨i, rfl⟩ := Nat.exists_eq_succ_of_ne_zero hne
      rw [Nat.pow_succ, ← mul_assoc] at hdigits
      omega
    subst hone
    have hexponent : d.exponent = -32 := hj
    rw [pow_zero, mul_one] at hdigits
    exact .inr (.inr ⟨rfl, by cases d; simp_all [exceptional]⟩)

end

section

variable {m : ℕ} {e : ℤ} {d : Decimal} (h : Nearby m e d) (hm : 0 < m)
  (hcanonical : Canonical .binary32 m e) (hmax : e ≤ 104) (hpower : m ≠ 2 ^ 23 ∨ e = -149)

include h

/-- The shortest decimal is no larger than the half-way point above. -/
lemma Nearby.value_le : d.value ≤ (2 * m + 1) * 2 ^ (e - 1) := by
  have hinside := (abs_le.1 h.inside).2
  have hhalf := Binary.two_zpow_eq_two_mul e
  rw [hhalf] at hinside
  linarith

/-- On a fine grid the shortest decimal is nowhere near a half-way point. -/
lemma Nearby.lt_of_fine (hmin : -149 ≤ e) (hmax : e ≤ 104) (hfine : d.exponent < coarseGrid e) :
    |d.value - m * 2 ^ e| < 2 ^ e / 2 * (1 - 5 / 2 ^ 29) := by
  have hpow : (0 : ℚ) < 2 ^ e := by positivity
  have hstep : (10 : ℚ) ^ d.exponent ≤ 10 ^ (coarseGrid e - 1) :=
    zpow_le_zpow_right₀ (by norm_num) (by omega)
  have hgap := fine_le_two_zpow hmin hmax
  have hnearest := h.nearest
  linarith

include hm hcanonical hmax hpower

omit hmax hpower in
/-- The half-way point on the side of the shortest decimal, and how far the decimal is from there. -/
lemma Nearby.exists_halfway :
    ∃ n : ℕ, n % 2 = 1 ∧ 2 * m - 1 ≤ n ∧ n < 2 ^ 25 ∧
      |d.value - n * 2 ^ (e - 1)| = 2 ^ e / 2 - |d.value - m * 2 ^ e| := by
  have hlt : m < 2 ^ 24 := hcanonical.lt
  obtain ⟨hlow, hhigh⟩ := abs_le.1 h.inside
  rw [Binary.two_zpow_eq_two_mul e] at hlow hhigh ⊢
  rcases le_total (m * (2 * 2 ^ (e - 1)) : ℚ) d.value with habove | hbelow
  · refine ⟨2 * m + 1, by omega, by omega, by omega, ?_⟩
    push_cast
    rw [abs_of_nonneg (sub_nonneg.2 habove), abs_of_nonpos (by linarith)]
    ring
  · refine ⟨2 * m - 1, by omega, le_rfl, by omega, ?_⟩
    push_cast [Nat.cast_sub (show 1 ≤ 2 * m by omega)]
    rw [abs_of_nonpos (sub_nonpos.2 hbelow), abs_of_nonneg (by linarith)]
    ring

/-- **The margin.** The shortest decimal is half-way, or keeps a distance of more than `5 / 2 ^ 29` of
the half, or is the exceptional one.

**Proof sketch.** On a fine grid it is too near to the number to come near to a half-way point
(`Nearby.lt_of_fine`). On a coarse one it keeps clear of the half-way point on its own side
(`clear_of_halfway`), which is an odd multiple of the half, the next above or below `m * 2 ^ e`. -/
theorem Nearby.margin :
    |d.value - m * 2 ^ e| = 2 ^ e / 2 ∨
      |d.value - m * 2 ^ e| < 2 ^ e / 2 * (1 - 5 / 2 ^ 29) ∨ e = -107 ∧ d = exceptional := by
  have hmin : -149 ≤ e := hcanonical.minExponent_le
  rcases le_or_gt (coarseGrid e) d.exponent with hcoarse | hfine
  · obtain ⟨n, hodd, hleast, hmost, hdistance⟩ := h.exists_halfway hm hcanonical
    have hleast : leastHalf e ≤ n := by
      have hfull : 2 ^ 23 ≤ m ∨ e = -149 := hcanonical.full
      rw [leastHalf]
      split <;> omega
    have htop : d.value ≤ (2 ^ 25 - 1) * 2 ^ (e - 1) := by
      refine h.value_le.trans (mul_le_mul_of_nonneg_right ?_ (by positivity))
      have hcast : (m : ℚ) + 1 ≤ 2 ^ 24 := by exact_mod_cast hcanonical.lt
      linarith
    rcases clear_of_halfway hmin hmax h.pos hcoarse htop hodd hleast hmost with hmeet | hfar | hexception
    · rw [abs_eq_zero.2 (sub_eq_zero.2 hmeet)] at hdistance
      exact .inl (by linarith)
    · rw [hdistance] at hfar
      rw [Binary.two_zpow_eq_two_mul e] at hfar ⊢
      exact .inr (.inl (by linarith))
    · exact .inr (.inr hexception)
  · exact .inr (.inl (h.lt_of_fine hmin hmax hfine))

omit hpower in
/-- **Half-way decimals are simple.** If the shortest decimal is half-way between two numbers, it is a
small multiple of half the distance of the numbers, and its power of ten is small, too.

**Proof sketch.** It stands on a coarse grid, since it would be nearer to the number on a fine one. With
the digits of the first coarse grid it is less than `2 ^ 24` steps of that grid, and it is `n` halves of
`2 ^ e`. So a power of ten meets a power of two at small multiples of both, which is only possible near
the unit (`coarseGrid_of_meet`), and few zeros can be left out of so small a number. -/
theorem Nearby.simple_of_halfway (hend : |d.value - m * 2 ^ e| = 2 ^ e / 2) :
    (∃ n < 2 ^ 25, d.value = (n : ℕ) * 2 ^ (e - 1)) ∧ -11 < d.exponent ∧ d.exponent < 19 := by
  have hmin : -149 ≤ e := hcanonical.minExponent_le
  obtain ⟨n, hodd, -, hmost, hdistance⟩ := h.exists_halfway hm hcanonical
  rw [hend, sub_self, abs_eq_zero] at hdistance
  have hn : 0 < n := by omega
  have hvalue : d.value = n * 2 ^ (e - 1) := sub_eq_zero.1 hdistance
  refine ⟨⟨n, hmost, hvalue⟩, ?_⟩
  have hcoarse : coarseGrid e ≤ d.exponent := by
    by_contra hfine
    have hpow : (0 : ℚ) < 2 ^ e := by positivity
    have := h.lt_of_fine hmin hmax (not_le.1 hfine)
    linarith
  obtain ⟨j, hj, hdigits⟩ := exists_digits hcoarse
  have hfew : d.coefficient * 10 ^ j < 2 ^ 24 := by
    refine digits_lt hmin hmax ?_ hdigits
    have hcast : ((n + 1 : ℕ) : ℚ) ≤ (2 ^ 25 : ℕ) := by exact_mod_cast hmost
    push_cast at hcast
    rw [hvalue]
    gcongr
    linarith
  obtain ⟨f, hf, hgrid, hunit⟩ := exists_units e
  have hmeet : d.coefficient * 10 ^ j * gridUnits e = n * halfUnits e := by
    have hcast : ((d.coefficient * 10 ^ j : ℕ) * gridUnits e : ℚ) = n * halfUnits e := by
      rw [hgrid, hunit, ← mul_assoc, ← mul_assoc, ← hdigits, hvalue]
    exact_mod_cast hcast
  have hpos := Nat.mul_pos h.pos (Nat.pow_pos (show 0 < 10 by decide) (n := j))
  have hnear := coarseGrid_of_meet hpos hfew hn hmost hmeet
  have hzeros : j < 8 := by
    by_contra hlarge
    have hpow := Nat.pow_le_pow_right (show 0 < 10 by decide) (not_lt.1 hlarge)
    have := Nat.le_mul_of_pos_left (10 ^ j) h.pos
    omega
  omega

end

/-! ## Decimals that are read back -/

/-- The error of a decimal that is read with two roundings of a double. -/
def readError (d : Decimal) : ℚ := d.value * (1 / 2 ^ 52 + 1 / 2 ^ 100)

/-- Why a decimal is read back as the number `m * 2 ^ e`. -/
inductive Safe (m : ℕ) (e : ℤ) (d : Decimal) : Prop
  /-- Everything it may be read as is rounded to the number. -/
  | margin (h : ∀ v : ℚ, |v - d.value| ≤ d.readError → Binary.rounded .binary32 v = m * 2 ^ e)
  /-- It is rounded to the number, and simple enough to be read without error. -/
  | simple (round : Binary.rounded .binary32 d.value = m * 2 ^ e)
      (digits : ∃ n < 2 ^ 25, d.value = (n : ℕ) * 2 ^ (e - 1)) (low : -11 < d.exponent)
      (high : d.exponent < 19)

/-- The size of the decimals that stand for single-precision numbers. -/
structure Small (d : Decimal) : Prop where
  pos : 0 < d.coefficient
  lt : d.coefficient < 2 ^ 28
  low : -46 ≤ d.exponent
  high : d.exponent < 40

section

variable {m : ℕ} {e : ℤ} {d : Decimal} (h : Nearby m e d) (hm : 0 < m)
  (hcanonical : Canonical .binary32 m e) (hmax : e ≤ 104)

include h hm hcanonical hmax

omit hm in
/-- The size of the shortest decimal.

**Proof sketch.** A coefficient that was much larger than a mantissa would make the decimal larger than
the number, on a grid that is no finer than a tenth of the distance of two numbers. The exponents are
those of the grids for the least and the greatest number. -/
lemma Nearby.small : d.Small := by
  have hmin : -149 ≤ e := hcanonical.minExponent_le
  have hlt : (m : ℚ) + 1 ≤ 2 ^ 24 := by exact_mod_cast hcanonical.lt
  have hpow : (0 : ℚ) < 2 ^ (e - 1) := by positivity
  have hhalf := Binary.two_zpow_eq_two_mul e
  have hone : (1 : ℚ) ≤ d.coefficient := by exact_mod_cast h.pos
  have hten : (0 : ℚ) < 10 ^ d.exponent := by positivity
  have hvalue : (d.coefficient : ℚ) * 10 ^ d.exponent ≤ 2 ^ 24 * 2 ^ e := by
    have hle := h.value_le
    rw [value] at hle
    have := mul_le_mul_of_nonneg_right hlt hpow.le
    linarith
  have hcoarse := h.coarse
  refine ⟨h.pos, ?_, ?_, ?_⟩
  · have hcoefficient : (d.coefficient : ℚ) ≤ 2 ^ 24 * 10 := by
      refine le_of_mul_le_mul_right (hvalue.trans ?_) hten
      rw [zpow_add_one₀ (by norm_num)] at hcoarse
      linarith
    have : d.coefficient ≤ 2 ^ 24 * 10 := by exact_mod_cast hcoefficient
    omega
  · by_contra hsmall
    have hfine : (10 : ℚ) ^ (d.exponent + 1) ≤ 10 ^ (-46 : ℤ) :=
      zpow_le_zpow_right₀ (by norm_num) (by omega)
    have hleast : (2 : ℚ) ^ (-149 : ℤ) ≤ 2 ^ e := zpow_le_zpow_right₀ (by norm_num) hmin
    have hgap : (10 : ℚ) ^ (-46 : ℤ) < 2 ^ (-149 : ℤ) := by norm_num1
    exact absurd ((hleast.trans hcoarse).trans hfine) (not_le.2 hgap)
  · by_contra hlarge
    have hgrid : (10 : ℚ) ^ (40 : ℤ) ≤ 10 ^ d.exponent :=
      zpow_le_zpow_right₀ (by norm_num) (by omega)
    have hmost : (2 : ℚ) ^ e ≤ 2 ^ (104 : ℤ) := zpow_le_zpow_right₀ (by norm_num) hmax
    have hgap : (2 : ℚ) ^ 24 * 2 ^ (104 : ℤ) < 10 ^ (40 : ℤ) := by norm_num1
    have htop : (2 : ℚ) ^ 24 * 2 ^ e ≤ 2 ^ 24 * 2 ^ (104 : ℤ) := by gcongr
    have hstep : (10 : ℚ) ^ d.exponent ≤ d.coefficient * 10 ^ d.exponent :=
      le_mul_of_one_le_left hten.le hone
    exact absurd ((hgrid.trans hstep).trans (hvalue.trans htop)) (not_le.2 hgap)

/-- The shortest decimal is read back, unless it is the exceptional one.

**Proof sketch.** What is half-way is simple, and rounded to the even mantissa. Otherwise the margin is
larger than the error, so all that the decimal may be read as lies inside the rounding interval. -/
lemma Nearby.safe (hpower : m ≠ 2 ^ 23 ∨ e = -149) :
    Safe m e d ∨ e = -107 ∧ d = exceptional := by
  have hcases {x : ℚ} : m ≠ 2 ^ 23 ∨ e = -149 ∨ m * 2 ^ e ≤ x := by tauto
  rcases h.margin hm hcanonical hmax hpower with hend | hgap | hexception
  · obtain ⟨hdigits, hlow, hhigh⟩ := h.simple_of_halfway hm hcanonical hmax hend
    exact .inl (.simple (hcanonical.rounded_eq_of_near hm hcases h.inside h.even) hdigits hlow hhigh)
  · refine .inl (.margin fun v hv => ?_)
    have hlt : (m : ℚ) + 1 ≤ 2 ^ 24 := by exact_mod_cast hcanonical.lt
    have hpow : (0 : ℚ) < 2 ^ (e - 1) := by positivity
    have hhalf := Binary.two_zpow_eq_two_mul e
    have hvalue : d.value ≤ 2 ^ 24 * 2 ^ e := by
      have hle := h.value_le
      have := mul_le_mul_of_nonneg_right hlt hpow.le
      linarith
    have hclose : |v - m * 2 ^ e| < 2 ^ e / 2 := by
      have htriangle := abs_sub_le v d.value (m * 2 ^ e)
      rw [readError] at hv
      linarith
    exact hcanonical.rounded_eq_of_near hm hcases hclose.le fun hend => absurd hend hclose.ne
  · exact .inr hexception

end

/-! ## Powers of two -/

/-- The shortest decimals of powers of two keep clear of the half-way points, the lower of which is
nearer. -/
lemma margin_two_pow {e : ℤ} (hmin : -149 ≤ e) (hmax : e ≤ 104) :
    let d := shortest .binary32 .toEven (2 ^ 23) e
    0 < d.coefficient ∧ d.coefficient < 2 ^ 28 ∧ -46 ≤ d.exponent ∧ d.exponent < 40 ∧
      d.value + d.readError < 2 ^ 23 * 2 ^ e + 2 ^ e / 2 ∧
      2 ^ 23 * 2 ^ e - 2 ^ e / 4 < d.value - d.readError := by
  refine Binary32.forall_exponent hmin hmax ?_
  decide +kernel

/-- The shortest decimal of a power of two is read back. -/
lemma safe_two_pow {e : ℤ} (hcanonical : Canonical .binary32 (2 ^ 23) e) (hmin : -149 < e)
    (hmax : e ≤ 104) :
    (shortest .binary32 .toEven (2 ^ 23) e).Small ∧
      Safe (2 ^ 23) e (shortest .binary32 .toEven (2 ^ 23) e) := by
  obtain ⟨hpos, hlt, hlow, hhigh, habove, hbelow⟩ := margin_two_pow hmin.le hmax
  generalize shortest .binary32 .toEven (2 ^ 23) e = d at *
  refine ⟨⟨hpos, hlt, hlow, hhigh⟩, .margin fun v hv => ?_⟩
  obtain ⟨hleft, hright⟩ := abs_le.1 hv
  have hcast : ((2 ^ 23 : ℕ) : ℚ) = 2 ^ 23 := by norm_num
  have hupper : v < 2 ^ 23 * 2 ^ e + 2 ^ e / 2 := by linarith
  have hlower : 2 ^ 23 * 2 ^ e - 2 ^ e / 4 < v := by linarith
  rcases le_total v (2 ^ 23 * 2 ^ e) with hle | hge
  · rw [hcast]
    exact Binary.rounded_eq_two_pow hmin hle hlower
  · have hclose : |v - (2 ^ 23 : ℕ) * 2 ^ e| < 2 ^ e / 2 := by
      rw [hcast, abs_of_nonneg (sub_nonneg.2 hge)]
      linarith
    exact hcanonical.rounded_eq_of_near (by decide) (.inr (.inr (hcast ▸ hge))) hclose.le
      fun hend => absurd hend hclose.ne

/-- Only one number can have the exceptional decimal. -/
lemma mantissa_of_exceptional {m : ℕ} (h : Nearby m (-107) exceptional) : m = 11420669 := by
  obtain ⟨hleft, hright⟩ := abs_le.1 h.inside
  simp only [exceptional, value] at hleft hright
  have hlow : (11420668 : ℚ) * 2 ^ (-107 : ℤ) + 2 ^ (-107 : ℤ) / 2 <
      (7038531 : ℕ) * 10 ^ (-32 : ℤ) := by norm_num1
  have hhigh : ((7038531 : ℕ) * 10 ^ (-32 : ℤ) : ℚ) + 2 ^ (-107 : ℤ) / 2 <
      11420670 * 2 ^ (-107 : ℤ) := by norm_num1
  have hpow : (0 : ℚ) < 2 ^ (-107 : ℤ) := by positivity
  generalize (2 : ℚ) ^ (-107 : ℤ) = q at *
  have habove : (11420668 : ℚ) < m := lt_of_mul_lt_mul_right (by linarith) hpow.le
  have hbelow : (m : ℚ) < 11420670 := lt_of_mul_lt_mul_right (by linarith) hpow.le
  have habove : 11420668 < m := by exact_mod_cast habove
  have hbelow : m < 11420670 := by exact_mod_cast hbelow
  omega

/-- **The shortest decimal of a single-precision number is read back**, with one exception: `11420669`
times `2 ^ -107`, whose shortest decimal is nearly half-way to the next number.

**Proof sketch.** The rounding interval of a power of two is shorter below than above, and these few
numbers are checked one by one (`margin_two_pow`). The interval of any other number is symmetric, so
that its shortest decimal is `Nearby`, with a margin or simple (`Nearby.safe`). The exceptional decimal
lies in one of these intervals only. -/
theorem safe_shortest {m : ℕ} {e : ℤ} (hm : 0 < m) (hcanonical : Canonical .binary32 m e)
    (hmax : e ≤ 104) :
    (shortest .binary32 .toEven m e).Small ∧
      (Safe m e (shortest .binary32 .toEven m e) ∨
        e = -107 ∧ m = 11420669 ∧ shortest .binary32 .toEven m e = exceptional) := by
  rcases em (m ≠ 2 ^ 23 ∨ e = -149) with hpower | hpower
  · have h := nearby_shortest .toEven hcanonical hm hmax hpower
    refine ⟨h.small hcanonical hmax, ?_⟩
    rcases h.safe hm hcanonical hmax hpower with hsafe | ⟨rfl, hd⟩
    · exact .inl hsafe
    · exact .inr ⟨rfl, mantissa_of_exceptional (hd ▸ h), hd⟩
  · obtain ⟨hm, he⟩ := not_or.1 hpower
    obtain rfl : m = 2 ^ 23 := not_not.1 hm
    have hmin : -149 < e := lt_of_le_of_ne hcanonical.minExponent_le (Ne.symm he)
    obtain ⟨hsmall, hsafe⟩ := safe_two_pow hcanonical hmin hmax
    exact ⟨hsmall, .inl hsafe⟩

/-- Rounded to the nearest double first, the exceptional decimal falls half-way between two
single-precision numbers, and from there to the wrong one. -/
theorem rounded_rounded_exceptional :
    Binary.rounded .binary32 (Binary.rounded .binary64 exceptional.value) =
      11420670 * 2 ^ (-107 : ℤ) := by
  have hdouble : Binary.rounded .binary64 exceptional.value =
      (22841339 * 2 ^ 28 : ℕ) * 2 ^ (-136 : ℤ) := by
    have hcanonical : Canonical .binary64 (22841339 * 2 ^ 28) (-136) :=
      ⟨by decide, by decide, .inl (by decide)⟩
    have hclose : |exceptional.value - (22841339 * 2 ^ 28 : ℕ) * 2 ^ (-136 : ℤ)| <
        2 ^ (-136 : ℤ) / 2 := by
      decide +kernel
    exact hcanonical.rounded_eq_of_near (by decide) (.inl (by decide)) hclose.le
      fun hend => absurd hend hclose.ne
  have hcanonical : Canonical .binary32 11420670 (-107) :=
    ⟨by decide, by decide, .inl (by decide)⟩
  have hhalfway : |((22841339 * 2 ^ 28 : ℕ) * 2 ^ (-136 : ℤ) : ℚ) -
      (11420670 : ℕ) * 2 ^ (-107 : ℤ)| = 2 ^ (-107 : ℤ) / 2 := by
    decide +kernel
  rw [hdouble, hcanonical.rounded_eq_of_near (by decide) (.inl (by decide)) hhalfway.le
    fun _ => by decide]
  norm_num

end Ribbon.Decimal
