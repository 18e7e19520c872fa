import Ribbon.Proofs.Binary.Remainder

/-!
# Whole parts and fractions

The whole part of a number and the fraction behind it have no more digits than the number, so splitting
a number at the point rounds nothing. A fraction never comes closer to one than by the last digit that
a fraction can have.

## Main results

* `Ribbon.Binary.Regular.floor`, `Ribbon.Binary32.floor_spec` — the whole part is exact.
* `Ribbon.Binary32.toNat_toUInt64` — the whole part as a count.
* `Ribbon.Binary32.fraction_spec` — the fraction is exact, and less than one by a last digit.
-/

set_option relaxedAutoImplicit false
set_option autoImplicit false

namespace Ribbon.Binary

open Float.Model (Format UnpackedFloat)
open Float.Model.UnpackedFloat

/-! ## Whole parts -/

/-- An integer bounds the whole part of a number if it bounds the number. -/
lemma abs_floor_le {x : ℚ} {n : ℤ} (h : |x| ≤ n) : |⌊x⌋| ≤ n := by
  obtain ⟨hlow, hhigh⟩ := abs_le.1 h
  have hbelow : (⌊x⌋ : ℚ) ≤ n := (Int.floor_le x).trans hhigh
  exact abs_le.2 ⟨Int.le_floor.2 (by push_cast; exact hlow), by exact_mod_cast hbelow⟩

/-- An integer that is not larger than `2 ^ 24` is a value of single precision. -/
lemma approx_intCast {k : ℤ} (h : |k| ≤ 2 ^ 24) : approx .binary32 k = k := by
  obtain ⟨n, rfl | rfl⟩ := Int.eq_nat_or_neg k
  all_goals
    have hn : n ≤ 2 ^ 24 := by simpa using h
    have hround : approx .binary32 n = n := by
      rw [approx_of_nonneg _ (by positivity), Binary32.rounded_natCast hn]
    push_cast
  · exact hround
  · rw [approx_neg, hround]

/-- The whole part of a signed mantissa with `k` digits behind the point. -/
lemma floor_apply_mul_zpow (s : Sign) (m k : ℕ) :
    ⌊((s.apply m : ℤ) : ℚ) * 2 ^ (-k : ℤ)⌋ = s.apply m >>> k := by
  rw [zpow_neg, zpow_natCast, ← div_eq_mul_inv, Int.shiftRight_eq_div_pow]
  exact_mod_cast Rat.floor_intCast_div_natCast (s.apply m) (2 ^ k)

/-- It is at most as large as a mantissa. -/
lemma Canonical.abs_shiftRight_le {m k : ℕ} (h : Canonical .binary32 m (-k)) (s : Sign) :
    |s.apply m >>> k| ≤ 2 ^ 24 := by
  rw [← floor_apply_mul_zpow]
  refine abs_floor_le ?_
  have hone : (2 : ℚ) ^ (-k : ℤ) ≤ 1 := zpow_le_one_of_nonpos₀ (by norm_num) (by omega)
  have hm : (m : ℚ) ≤ 2 ^ 24 := by exact_mod_cast h.lt.le
  rw [apply_mul_zpow, abs_signed, abs_of_nonneg (by positivity)]
  push_cast
  calc (m : ℚ) * 2 ^ (-k : ℤ) ≤ 2 ^ 24 * 1 := mul_le_mul hm hone (by positivity) (by norm_num)
    _ = 2 ^ 24 := mul_one _

/-- **The whole part is exact.** A number without digits behind the point is its own whole part, and
any other number is less than `2 ^ 24`. -/
theorem Regular.floor {u : UnpackedFloat} (hu : Regular .binary32 u) :
    Regular .binary32 (Binary32.floorDecoded u) ∧ value (Binary32.floorDecoded u) = ⌊value u⌋ := by
  cases hu with
  | zero s => exact ⟨.zero s, by simp [Binary32.floorDecoded]⟩
  | finite s m e hpos hcanonical =>
    rw [value_finite, ← apply_mul_zpow, Binary32.floorDecoded]
    split
    · next he =>
      obtain ⟨k, rfl⟩ := Int.eq_ofNat_of_zero_le he
      refine ⟨.finite s m k hpos hcanonical, ?_⟩
      have hwhole : ((s.apply m : ℤ) : ℚ) * 2 ^ (k : ℤ) = (s.apply m * 2 ^ k : ℤ) := by
        push_cast [zpow_natCast]
        rfl
      rw [value_finite, ← apply_mul_zpow, hwhole, Int.floor_intCast]
    · next he =>
      obtain ⟨k, hk⟩ := Int.eq_ofNat_of_zero_le (show 0 ≤ -e by omega)
      obtain rfl : e = -k := by omega
      have hshift : (- -(k : ℤ)).toNat = k := by omega
      obtain ⟨hregular, hvalue⟩ := normalize_spec .binary32 (s.apply m >>> k) 0 s
      rw [zpow_zero, mul_one, approx_intCast (hcanonical.abs_shiftRight_le s)] at hvalue
      rw [hshift, floor_apply_mul_zpow]
      exact ⟨hregular, hvalue⟩

/-- A conversion to an integer cuts the digits behind the point off, whatever the sign. -/
lemma roundToInt_eq (s : Sign) (m : ℕ) (e : ℤ) :
    roundToInt s m e = s.apply ⌊(m * 2 ^ e : ℚ)⌋₊ := by
  have hcut : ∃ k j : ℕ, (m : ℚ) * 2 ^ e = (m <<< k : ℕ) / 2 ^ j ∧
      roundToInt s m e =
        s.apply (ExtendedMantissa.ofMantissaAndAccuracy (m <<< k) .exact >>> j).mantissa := by
    refine ⟨(e - 0).toNat, (0 - (e - (e - 0).toNat)).toNat, ?_, rfl⟩
    rcases le_total 0 e with he | he
    · obtain ⟨k, rfl⟩ := Int.eq_ofNat_of_zero_le he
      simp [Nat.shiftLeft_eq]
    · obtain ⟨k, hk⟩ := Int.eq_ofNat_of_zero_le (neg_nonneg.2 he)
      obtain rfl : e = -k := by omega
      simp [Nat.shiftLeft_eq, div_eq_mul_inv]
  obtain ⟨k, j, hvalue, hresult⟩ := hcut
  have hlocated := (locates_exact (m <<< k)).shiftRight j
  rw [← hvalue] at hlocated
  rw [hresult, (Nat.floor_eq_iff (by positivity)).2 ⟨hlocated.le, hlocated.lt⟩]

/-! ## Fractions -/

variable {spec : Format} {u : UnpackedFloat}

/-- The digits of a mantissa behind the point are a number of the format. -/
lemma Canonical.rounded_fract {m : ℕ} {e : ℤ} (h : Canonical spec m e) :
    rounded spec (Int.fract (m * 2 ^ e)) = Int.fract (m * 2 ^ e : ℚ) := by
  rcases le_total 0 e with he | he
  · obtain ⟨k, rfl⟩ := Int.eq_ofNat_of_zero_le he
    have hwhole : (m : ℚ) * 2 ^ (k : ℤ) = (m * 2 ^ k : ℕ) := by
      push_cast [zpow_natCast]
      rfl
    rw [hwhole, Int.fract_natCast, rounded_zero]
  · obtain ⟨k, hk⟩ := Int.eq_ofNat_of_zero_le (neg_nonneg.2 he)
    obtain rfl : e = -k := by omega
    have hone : ((2 ^ k : ℕ) : ℚ) * 2 ^ (-k : ℤ) = 1 := by
      rw [zpow_neg, zpow_natCast]
      push_cast
      exact mul_inv_cancel₀ (by positivity)
    have hdigits := mod_mul_zpow m (-k) (Nat.two_pow_pos k)
    rw [hone, residue, div_one, mul_one] at hdigits
    rw [← hdigits]
    exact rounded_of_representable ((Nat.mod_le _ _).trans_lt h.lt) h.minExponent_le

/-- A number that is not negative is split at the point without rounding. -/
lemma Regular.approx_fract (hu : Regular spec u) (h : 0 ≤ value u) :
    approx spec (Int.fract (value u)) = Int.fract (value u) := by
  rw [approx_of_nonneg spec (Int.fract_nonneg _)]
  cases hu with
  | zero s => simp
  | finite s m e hpos hcanonical =>
    cases s with
    | positive => exact hcanonical.rounded_fract
    | negative => exact absurd h (value_negative_lt m e hpos).not_ge

/-- A mantissa whose digits are all behind the point is less than one by a last digit.

**Proof sketch.** The last digit is that of the mantissa, if it has few digits behind the point.
Otherwise the mantissa would be no greater with its last digit at the end of the format. -/
lemma Canonical.le_one_sub {m : ℕ} {e : ℤ} (hm : Canonical spec m e) (hpos : 0 < m)
    (h : (m : ℚ) * 2 ^ e < 1) : (m : ℚ) * 2 ^ e ≤ 1 - 1 / 2 ^ spec.mantissaBits := by
  obtain ⟨k, rfl⟩ : ∃ k : ℕ, e = -k := by
    refine ⟨(-e).toNat, ?_⟩
    by_contra hne
    have hone : (1 : ℚ) ≤ 2 ^ e := one_le_zpow₀ (by norm_num) (by omega)
    have hleast : (1 : ℚ) ≤ m := by exact_mod_cast hpos
    exact absurd (one_le_mul_of_one_le_of_one_le hleast hone) (not_le.2 h)
  rw [zpow_neg, zpow_natCast, ← div_eq_mul_inv] at h ⊢
  have hwhole : (m : ℚ) + 1 ≤ 2 ^ k := by exact_mod_cast (div_lt_one (by positivity)).1 h
  have hdigits : (m : ℚ) + 1 ≤ 2 ^ spec.mantissaBits := by exact_mod_cast hm.lt
  have hsum : (m : ℚ) / 2 ^ k + 1 / 2 ^ spec.mantissaBits ≤ 1 := by
    rcases le_total k spec.mantissaBits with hle | hle
    · calc (m : ℚ) / 2 ^ k + 1 / 2 ^ spec.mantissaBits
          ≤ m / 2 ^ k + 1 / 2 ^ k := by gcongr; norm_num
        _ = (m + 1) / 2 ^ k := by ring
        _ ≤ 1 := (div_le_one (by positivity)).2 hwhole
    · calc (m : ℚ) / 2 ^ k + 1 / 2 ^ spec.mantissaBits
          ≤ m / 2 ^ spec.mantissaBits + 1 / 2 ^ spec.mantissaBits := by gcongr; norm_num
        _ = (m + 1) / 2 ^ spec.mantissaBits := by ring
        _ ≤ 1 := (div_le_one (by positivity)).2 hdigits
  linarith

/-- A number of the format that is less than one is so by a last digit. -/
lemma Regular.le_one_sub (hu : Regular spec u) (h : value u < 1) :
    value u ≤ 1 - 1 / 2 ^ spec.mantissaBits := by
  have hunit : 1 / (2 : ℚ) ^ spec.mantissaBits ≤ 1 :=
    (div_le_one (by positivity)).2 (one_le_pow₀ (by norm_num))
  cases hu with
  | zero s => simpa using hunit
  | finite s m e hpos hcanonical =>
    cases s with
    | positive => exact hcanonical.le_one_sub hpos h
    | negative => exact (value_negative_lt m e hpos).le.trans (sub_nonneg.2 hunit)

end Ribbon.Binary

namespace Ribbon.Binary32

open Ribbon.Binary (greatest)

variable {x : Float32} (hx : x.isFinite = true)

include hx

/-! ## Single precision -/

/-- **The whole part of a number is exact.** -/
theorem floor_spec : (floor x).isFinite = true ∧ value (floor x) = ⌊value x⌋ := by
  have hgreatest : greatest .binary32 = ((2 ^ 24 - 1) * 2 ^ 104 : ℤ) := by decide +kernel
  have hle : |(⌊value x⌋ : ℚ)| ≤ greatest .binary32 := by
    have hmost := abs_value_le x
    rw [hgreatest] at hmost ⊢
    exact_mod_cast Binary.abs_floor_le hmost
  exact encode_spec (regular_decode hx).floor hle

variable (hnonneg : 0 ≤ value x)

include hnonneg

/-- A number that is not negative is converted to its whole part, if that is a 64-bit count. -/
theorem toNat_toUInt64 (hlt : value x < 2 ^ 64) : x.toUInt64.toNat = ⌊value x⌋₊ := by
  have hfloor : ⌊value x⌋₊ < 2 ^ 64 := (Nat.floor_lt hnonneg).2 (by exact_mod_cast hlt)
  have hint : (decode x).toInt 0 (UInt64.size - 1) = ⌊value x⌋₊ := by
    have hregular := regular_decode hx
    rw [value] at hnonneg ⊢
    generalize decode x = u at *
    cases hregular with
    | zero s => simp [Float.Model.UnpackedFloat.toInt]
    | finite s m e hpos =>
      rw [Float.Model.UnpackedFloat.toInt, Binary.roundToInt_eq]
      cases s with
      | positive => rfl
      | negative => exact absurd hnonneg (Binary.value_negative_lt m e hpos).not_ge
  have hconvert : x.toUInt64 = UInt64.ofNatClamp ((decode x).toInt 0 (UInt64.size - 1)).toNat := rfl
  rw [hconvert, hint, Int.toNat_natCast, UInt64.toNat_ofNatClamp_of_lt hfloor]

/-- The whole part of a number that is not negative, as a count. -/
lemma toNat_toUInt64_floor (hlt : value x < 2 ^ 64) : (floor x).toUInt64.toNat = ⌊value x⌋₊ := by
  obtain ⟨hfinite, hvalue⟩ := floor_spec hx
  have hcast : value (floor x) = (⌊value x⌋₊ : ℕ) := by
    rw [hvalue, natCast_floor_eq_intCast_floor hnonneg]
  rw [toNat_toUInt64 hfinite (hcast ▸ Nat.cast_nonneg _)
    ((hvalue ▸ Int.floor_le _).trans_lt hlt), hcast, Nat.floor_natCast]

/-- **The fraction of a number that is not negative is exact**, and less than one by a last digit. -/
theorem fraction_spec :
    (x - floor x).isFinite = true ∧ value (x - floor x) = Int.fract (value x) ∧
      0 ≤ value (x - floor x) ∧ value (x - floor x) ≤ 1 - 1 / 2 ^ 24 := by
  obtain ⟨hfloor, hvalue⟩ := floor_spec hx
  have hexact : Binary.approx .binary32 (value x - value (floor x)) = Int.fract (value x) := by
    rw [hvalue]
    exact (regular_decode hx).approx_fract hnonneg
  have hlt := Int.fract_lt_one (value x)
  have hgreatest : (1 : ℚ) ≤ greatest .binary32 := by decide +kernel
  have hle : |Binary.approx .binary32 (value x - value (floor x))| ≤ greatest .binary32 := by
    rw [hexact, abs_of_nonneg (Int.fract_nonneg _)]
    exact hlt.le.trans hgreatest
  obtain ⟨hfinite, hfraction⟩ := sub_spec hx hfloor hle
  rw [hexact] at hfraction
  refine ⟨hfinite, hfraction, ?_, ?_⟩
  · rw [hfraction]
    exact Int.fract_nonneg _
  · exact (regular_decode hfinite).le_one_sub (by rw [← value, hfraction]; exact hlt)

end Ribbon.Binary32
