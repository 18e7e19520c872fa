import Ribbon.Proofs.Binary.Value

/-!
# Sums, differences and products

The result of an operation is computed exactly and then rounded, so its value is the nearest one to the
exact result.

## Main results

* `Ribbon.Binary.normalize_spec` — a mantissa with any exponent is rounded to the nearest value.
* `Ribbon.Binary.Regular.add`, `Ribbon.Binary.Regular.sub` — the value of a sum or a difference is the
  nearest one to the exact result.
* `Ribbon.Binary32.add_spec`, `Ribbon.Binary32.sub_spec` — the same in single precision.
* `Ribbon.Binary.Regular.mul` — the value of a product is the nearest one to the exact product.
* `Ribbon.Binary32.mul_spec` — the same in single precision.
-/

set_option relaxedAutoImplicit false
set_option autoImplicit false

/-! ## Sums and differences

The sum of two decoded numbers is computed exactly, on the smaller of their exponents, and then
rounded, and a difference is the sum with the opposite number. In single precision the result is finite
unless it is too large when it is rounded.
-/

namespace Ribbon.Binary

open Float.Model (Format UnpackedFloat)
open Float.Model.UnpackedFloat

variable {spec : Format} {u v : UnpackedFloat}

/-- A mantissa may be shifted to a smaller exponent. -/
lemma shiftLeft_mul_zpow (m : ℕ) {e low : ℤ} (h : low ≤ e) :
    ((m <<< (e - low).toNat : ℕ) : ℚ) * 2 ^ low = m * 2 ^ e := by
  obtain ⟨k, hk⟩ := Int.eq_ofNat_of_zero_le (sub_nonneg.2 h)
  obtain rfl : e = low + k := by omega
  rw [hk, Int.toNat_natCast, Nat.shiftLeft_eq, zpow_add₀ (by norm_num), zpow_natCast]
  push_cast
  ring

/-! ### Normalization -/

variable (spec) in
/-- What is normalized is a number of the format with the nearest value. -/
theorem normalize_spec (m e : ℤ) (s : Sign) :
    Regular spec (UnpackedFloat.normalize spec m e s) ∧
      value (UnpackedFloat.normalize spec m e s) = approx spec (m * 2 ^ e) := by
  rw [UnpackedFloat.normalize]
  split
  · next hcompare =>
    have hm := Int.compare_eq_lt.1 hcompare
    have hshows := shows_round spec e .negative (m := (-m).toNat) (by omega)
    have hcast : (((-m).toNat : ℕ) : ℚ) = -m := by
      exact_mod_cast Int.toNat_of_nonneg (by omega : 0 ≤ -m)
    refine ⟨hshows.regular, (hshows.value_eq (by positivity)).trans ?_⟩
    rw [signed, hcast, neg_mul, neg_neg]
  · next hcompare =>
    rw [Int.compare_eq_eq.1 hcompare]
    exact ⟨.zero s, by simp [approx_of_nonneg]⟩
  · next hcompare =>
    have hm := Int.compare_eq_gt.1 hcompare
    have hshows := shows_round spec e .positive (m := m.toNat) (by omega)
    have hcast : ((m.toNat : ℕ) : ℚ) = m := by
      exact_mod_cast Int.toNat_of_nonneg (by omega : 0 ≤ m)
    refine ⟨hshows.regular, (hshows.value_eq (by positivity)).trans ?_⟩
    rw [signed, hcast]

/-! ### Addition -/

/-- **A sum is the number of the format that is nearest to the exact sum.** -/
theorem Regular.add (hu : Regular spec u) (hv : Regular spec v) :
    Regular spec (UnpackedFloat.add spec u v) ∧
      value (UnpackedFloat.add spec u v) = approx spec (value u + value v) := by
  cases hu with
  | zero s =>
    rw [value_zero, zero_add, hv.approx_value]
    cases hv with
    | zero t => cases s <;> cases t <;> exact ⟨.zero _, rfl⟩
    | finite t n f hn hnc => exact ⟨.finite t n f hn hnc, rfl⟩
  | finite s m e hm hmc =>
    cases hv with
    | zero t =>
      rw [value_zero, add_zero, (Regular.finite s m e hm hmc).approx_value]
      exact ⟨.finite s m e hm hmc, rfl⟩
    | finite t n f hn hnc =>
      obtain ⟨hregular, hvalue⟩ := normalize_spec spec
        (s.apply (m <<< (e - min e f).toNat : ℕ) + t.apply (n <<< (f - min e f).toNat : ℕ))
        (min e f) .positive
      refine ⟨hregular, hvalue.trans ?_⟩
      rw [Int.cast_add, add_mul, apply_mul_zpow, apply_mul_zpow, shiftLeft_mul_zpow m (min_le_left e f),
        shiftLeft_mul_zpow n (min_le_right e f), value_finite, value_finite]

/-! ### Subtraction -/

/-- The opposite of a number is one of the format. -/
lemma Regular.neg (h : Regular spec u) : Regular spec u.neg ∧ value u.neg = -value u := by
  cases h with
  | zero s => exact ⟨.zero _, neg_zero.symm⟩
  | finite s m e hpos hcanonical => exact ⟨.finite _ m e hpos hcanonical, signed_neg s _⟩

/-- A difference is the sum with the opposite number. -/
lemma Regular.sub_eq (hu : Regular spec u) (hv : Regular spec v) :
    UnpackedFloat.sub spec u v = UnpackedFloat.add spec u v.neg := by
  cases hu with
  | zero s => cases hv <;> rfl
  | finite s m e hm hmc =>
    cases hv with
    | zero t => rfl
    | finite t n f hn hnc =>
      cases t with
      | positive => rfl
      | negative =>
        simp only [UnpackedFloat.sub, UnpackedFloat.add, UnpackedFloat.neg, Sign.apply, Int.sub_neg]

/-- **A difference is the number of the format that is nearest to the exact difference.** -/
theorem Regular.sub (hu : Regular spec u) (hv : Regular spec v) :
    Regular spec (UnpackedFloat.sub spec u v) ∧
      value (UnpackedFloat.sub spec u v) = approx spec (value u - value v) := by
  obtain ⟨hneg, hvalue⟩ := hv.neg
  have hsum := hu.add hneg
  rwa [← hu.sub_eq hv, hvalue, ← sub_eq_add_neg] at hsum

end Ribbon.Binary

namespace Ribbon.Binary32

open Float.Model (UnpackedFloat)
open Ribbon.Binary (Regular approx greatest)

variable {x y : Float32}

/-! ### Single precision -/

/-- A finite number is not larger than the greatest one. -/
lemma abs_value_le (x : Float32) : |value x| ≤ greatest .binary32 :=
  (fits_decode x).abs_value_le

/-- A decoded number that is not too large is encoded with its value. -/
lemma encode_spec {u : UnpackedFloat} {q : ℚ} (h : Regular .binary32 u ∧ Binary.value u = q)
    (hle : |q| ≤ greatest .binary32) : (encode u).isFinite = true ∧ value (encode u) = q := by
  obtain ⟨hregular, rfl⟩ := h
  have hfits := hregular.fits (by decide) hle
  rw [isFinite_encode hfits, value, decode_encode hfits]
  exact ⟨hregular.isFinite, rfl⟩

/-- The sum of finite numbers is the number nearest to the exact sum, if that is not too large. -/
theorem add_spec (hx : x.isFinite = true) (hy : y.isFinite = true)
    (hle : |approx .binary32 (value x + value y)| ≤ greatest .binary32) :
    (x + y).isFinite = true ∧ value (x + y) = approx .binary32 (value x + value y) :=
  encode_spec ((regular_decode hx).add (regular_decode hy)) hle

/-- The difference of finite numbers is the number nearest to the exact difference, if that is not too
large. -/
theorem sub_spec (hx : x.isFinite = true) (hy : y.isFinite = true)
    (hle : |approx .binary32 (value x - value y)| ≤ greatest .binary32) :
    (x - y).isFinite = true ∧ value (x - y) = approx .binary32 (value x - value y) :=
  encode_spec ((regular_decode hx).sub (regular_decode hy)) hle

end Ribbon.Binary32

/-! ## Products

The product of two decoded numbers is computed exactly and then rounded. Nothing has to be shifted
before: one of the mantissas has all its digits, and so has the product, or both numbers are at the
least exponent and the digits of their product start far below it.
-/

namespace Ribbon.Binary

open Float.Model (Format UnpackedFloat totalExponent)
open Float.Model.UnpackedFloat

variable {spec : Format} {u v : UnpackedFloat}

variable (spec) in
/-- The least exponent of a format is not positive. -/
lemma minExponent_nonpos : spec.minExponent ≤ 0 := by
  have hbits := spec.hm
  have hmin := minExponent_eq spec
  omega

/-- The digits of a product start early enough. -/
lemma Canonical.le_targetExponent_mul {m n : ℕ} {e f : ℤ} (hm : Canonical spec m e)
    (hn : Canonical spec n f) (hmpos : 0 < m) (hnpos : 0 < n) :
    e + f ≤ spec.targetExponent (totalExponent (m * n) (e + f)) := by
  rcases hm.full with hfull | rfl
  · exact le_targetExponent_of_full (hfull.trans (Nat.le_mul_of_pos_right m hnpos))
  · rcases hn.full with hfull | rfl
    · exact le_targetExponent_of_full (hfull.trans (Nat.le_mul_of_pos_left n hmpos))
    · have hmin := minExponent_nonpos spec
      exact (by omega : _ ≤ spec.minExponent).trans (le_max_right _ _)

/-- **A product is the number of the format that is nearest to the exact product.** -/
theorem Regular.mul (hu : Regular spec u) (hv : Regular spec v) :
    Regular spec (UnpackedFloat.mul spec u v) ∧
      value (UnpackedFloat.mul spec u v) = approx spec (value u * value v) := by
  cases hu with
  | zero s =>
    rw [value_zero, zero_mul, approx_zero]
    cases hv <;> exact ⟨.zero _, rfl⟩
  | finite s m e hm hmc =>
    cases hv with
    | zero t =>
      rw [value_zero, mul_zero, approx_zero]
      exact ⟨.zero _, rfl⟩
    | finite t n f hn hnc =>
      have hexact : (m * 2 ^ e : ℚ) * (n * 2 ^ f) = (m * n : ℕ) * 2 ^ (e + f) := by
        rw [zpow_add₀ (by norm_num)]
        push_cast
        ring
      have hshows := shows_roundWithAccuracy_exact (s * t) (Nat.mul_pos hm hn)
        (hmc.le_targetExponent_mul hnc hm hn)
      refine ⟨hshows.regular, (hshows.value_eq (by positivity)).trans ?_⟩
      rw [← hexact, signed_mul, value_finite, value_finite]

end Ribbon.Binary

namespace Ribbon.Binary32

open Ribbon.Binary (approx greatest)

variable {x y : Float32}

/-- The product of finite numbers is the number nearest to the exact product, if that is not too
large. -/
theorem mul_spec (hx : x.isFinite = true) (hy : y.isFinite = true)
    (hle : |approx .binary32 (value x * value y)| ≤ greatest .binary32) :
    (x * y).isFinite = true ∧ value (x * y) = approx .binary32 (value x * value y) :=
  encode_spec ((regular_decode hx).mul (regular_decode hy)) hle

end Ribbon.Binary32
