import Ribbon.Proofs.Binary.Arithmetic

/-!
# Remainders

The remainder of a division is computed without rounding: on the smaller of the two exponents it has no
more digits than the dividend or than the divisor, and one of them has its own exponent there. So the
remainder of a number that is not negative is what is left of it after taking away the divisor as often
as possible.

## Main definitions

* `Ribbon.Binary.residue` — the exact remainder.

## Main results

* `Ribbon.Binary.Regular.remainder` — the remainder is exact.
* `Ribbon.Binary32.remainder_spec` — the same in single precision.
* `Ribbon.Binary32.wrap_spec` — a number is wrapped to its rounded remainder.
* `Ribbon.Binary32.wrap_spec_of_nonneg` — one that is not negative is wrapped to its remainder.
* `Ribbon.Binary32.value_wrap_lt_iff` — which numbers are wrapped below the divisor.
* `Ribbon.Binary32.wrap_eq_self_iff` — which numbers wrapping leaves as they are.
* `Ribbon.Binary32.toFloat32_spec` — counts up to `2 ^ 24` are converted without rounding.
-/

set_option relaxedAutoImplicit false
set_option autoImplicit false

namespace Ribbon.Binary

open Float.Model (Format UnpackedFloat)
open Float.Model.UnpackedFloat

/-! ## Exact remainders -/

/-- What is left of a number after taking away whole multiples of `n`. -/
def residue (n x : ℚ) : ℚ :=
  Int.fract (x / n) * n

section

variable {n : ℚ} (hn : 0 < n) (x : ℚ)

/-- Nothing is left of zero. -/
@[simp]
lemma residue_zero (n : ℚ) : residue n 0 = 0 := by
  simp [residue]

include hn

/-- What is left is not negative. -/
lemma residue_nonneg : 0 ≤ residue n x :=
  mul_nonneg (Int.fract_nonneg _) hn.le

/-- What is left is less than the divisor. -/
lemma residue_lt : residue n x < n := by
  have hlt := mul_lt_mul_of_pos_right (Int.fract_lt_one (x / n)) hn
  rwa [one_mul] at hlt

/-- Neither sign makes a remainder as large as the divisor. -/
lemma abs_odd_residue_lt : |odd (residue n) x| < n := by
  rw [odd]
  split
  · rw [abs_neg, abs_of_nonneg (residue_nonneg hn _)]
    exact residue_lt hn _
  · rw [abs_of_nonneg (residue_nonneg hn _)]
    exact residue_lt hn _

/-- A number below the divisor is left as it is. -/
lemma residue_eq_self (hnonneg : 0 ≤ x) (hlt : x < n) : residue n x = x := by
  rw [residue, Int.fract_eq_self.2 ⟨div_nonneg hnonneg hn.le, (div_lt_one hn).2 hlt⟩]
  exact div_mul_cancel₀ x hn.ne'

/-- One period more leaves the same remainder. -/
lemma residue_add_self : residue n (x + n) = residue n x := by
  rw [residue, residue, add_div, div_self hn.ne', Int.fract_add_one]

/-- The remainder of a negative number, from that of its opposite. -/
lemma residue_eq_odd_residue :
    residue n x = if odd (residue n) x < 0 then odd (residue n) x + n else odd (residue n) x := by
  rcases le_or_gt 0 x with hx | hx
  · rw [odd_of_nonneg hx, if_neg (not_lt.2 (residue_nonneg hn x))]
  · rw [odd, if_pos hx]
    by_cases hzero : Int.fract (-x / n) = 0
    · have hopposite : Int.fract (x / n) = 0 := by
        rw [← neg_neg (x / n), ← neg_div, Int.fract_neg_eq_zero, hzero]
      rw [residue, residue, hzero, hopposite]
      simp
    · have hfract : Int.fract (x / n) = 1 - Int.fract (-x / n) := by
        rw [← Int.fract_neg hzero, neg_div, neg_neg]
      have hpos : 0 < residue n (-x) :=
        mul_pos (lt_of_le_of_ne (Int.fract_nonneg _) (Ne.symm hzero)) hn
      rw [if_pos (neg_lt_zero.2 hpos), residue, residue, hfract]
      ring

end

/-- The remainder of a whole number of units by another one, on any exponent. -/
lemma emod_mul_zpow (i : ℤ) {n : ℕ} (e : ℤ) (hn : 0 < n) :
    ((i % n : ℤ) : ℚ) * 2 ^ e = residue (n * 2 ^ e) (i * 2 ^ e) := by
  have hpow : (2 : ℚ) ^ e ≠ 0 := by positivity
  rw [residue, mul_div_mul_right _ _ hpow, Int.fract_div_intCast_eq_div_intCast_mod]
  field_simp

/-- The remainder of two mantissas, on any exponent. -/
lemma mod_mul_zpow (m : ℕ) {n : ℕ} (e : ℤ) (hn : 0 < n) :
    ((m % n : ℕ) : ℚ) * 2 ^ e = residue (n * 2 ^ e) (m * 2 ^ e) := by
  exact_mod_cast emod_mul_zpow m e hn

/-! ## Decoded numbers -/

/-- A remainder has no more digits than one of the two numbers, the one with the smaller exponent. -/
lemma mod_shiftLeft_lt {spec : Format} {m n : ℕ} {e f : ℤ} (hm : Canonical spec m e)
    (hn : Canonical spec n f) (hpos : 0 < n) :
    (m <<< (e - min e f).toNat) % (n <<< (f - min e f).toNat) < 2 ^ spec.mantissaBits := by
  rcases le_total e f with h | h
  · rw [min_eq_left h, sub_self, Int.toNat_zero, Nat.shiftLeft_zero]
    exact (Nat.mod_le _ _).trans_lt hm.lt
  · rw [min_eq_right h, sub_self, Int.toNat_zero, Nat.shiftLeft_zero]
    exact (Nat.mod_lt _ hpos).trans hn.lt

/-- **The remainder is exact**, with the sign of the dividend.

**Proof sketch.** Both numbers are written with the smaller of their exponents. Then the remainder is
that of the two mantissas, which is less than either of the original ones, so it is not rounded. -/
theorem Regular.remainder {u v : UnpackedFloat} (hu : Regular .binary32 u)
    (hv : Regular .binary32 v) (hne : value v ≠ 0) :
    Regular .binary32 (Binary32.remainderDecoded u v) ∧
      value (Binary32.remainderDecoded u v) = odd (residue |value v|) (value u) := by
  cases hv with
  | zero t => exact absurd rfl hne
  | finite t n f hn hnc =>
    cases hu with
    | zero s => exact ⟨.zero s, by simp [Binary32.remainderDecoded, odd]⟩
    | finite s m e hm hmc =>
      have hlow : Format.minExponent .binary32 ≤ min e f :=
        le_min hmc.minExponent_le hnc.minExponent_le
      have hshifted : 0 < n <<< (f - min e f).toNat := by
        rw [Nat.shiftLeft_eq]
        positivity
      obtain ⟨hregular, hvalue⟩ := normalize_spec .binary32
        (s.apply ((m <<< (e - min e f).toNat) % (n <<< (f - min e f).toNat) : ℕ)) (min e f) s
      refine ⟨hregular, hvalue.trans ?_⟩
      rw [apply_mul_zpow, approx_signed _ s (by positivity),
        rounded_of_representable (mod_shiftLeft_lt hmc hnc hn) hlow, mod_mul_zpow _ _ hshifted,
        shiftLeft_mul_zpow m (min_le_left e f), shiftLeft_mul_zpow n (min_le_right e f),
        value_finite, value_finite, abs_signed, abs_of_pos (by positivity),
        odd_signed (residue_zero _) s (by positivity)]

section

variable {spec : Format} {u v : UnpackedFloat}

/-- The size of a number of the format. -/
lemma Regular.abs (h : Regular spec u) : Regular spec u.abs ∧ value u.abs = |value u| := by
  cases h with
  | zero s => exact ⟨.zero _, abs_zero.symm⟩
  | finite s m e hpos hcanonical =>
    refine ⟨.finite _ m e hpos hcanonical, ?_⟩
    rw [value_finite, abs_signed, abs_of_pos (by positivity)]
    rfl

/-- A number that is at least as large as the divisor leaves a remainder of the format, whatever its
sign: it is a whole number of units of the divisor.

**Proof sketch.** The number has no smaller exponent than the divisor. So the remainder is that of two
whole numbers of units of the divisor, and less than its mantissa. -/
lemma Regular.approx_residue_of_le (hu : Regular spec u) (hv : Regular spec v)
    (hpos : 0 < value v) (hle : value v ≤ |value u|) :
    approx spec (residue (value v) (value u)) = residue (value v) (value u) := by
  cases hv with
  | zero t => exact absurd hpos (lt_irrefl _)
  | finite t n f hn hnc =>
    obtain rfl : t = .positive := by
      cases t with
      | positive => rfl
      | negative => exact absurd hpos (value_negative_lt n f hn).not_gt
    cases hu with
    | zero s => exact absurd hle (by rw [value_zero, abs_zero]; exact not_le.2 hpos)
    | finite s m e hm hmc =>
      rw [value_finite, value_finite, abs_signed, abs_of_pos (by positivity)] at hle
      have hexponent : f ≤ e := by
        by_contra hlt
        exact absurd (hmc.lt_of_exponent_lt hnc (not_le.1 hlt)) (not_lt.2 hle)
      obtain ⟨k, rfl⟩ := Int.le.dest hexponent
      have hrest : (s.apply m * 2 ^ k) % n = (((s.apply m * 2 ^ k) % n).toNat : ℕ) :=
        (Int.toNat_of_nonneg (Int.emod_nonneg _ (by omega))).symm
      rw [value_finite, value_finite, signed_mul_zpow_add]
      change approx spec (residue (n * 2 ^ f) _) = residue (n * 2 ^ f) _
      rw [← emod_mul_zpow _ _ hn, hrest, Int.cast_natCast, approx_of_nonneg _ (by positivity)]
      refine rounded_of_representable ?_ hnc.minExponent_le
      have hlt := Int.emod_lt_of_pos (s.apply m * 2 ^ k) (by omega : (0 : ℤ) < n)
      have hdigits := hnc.lt
      omega

end

end Ribbon.Binary

namespace Ribbon.Binary32

open Ribbon.Binary (approx greatest odd residue residue_nonneg residue_lt)

variable {x n : Float32}

/-! ## Single precision -/

/-- The remainder is exact, with the sign of the dividend. -/
theorem remainder_spec (hx : x.isFinite = true) (hn : n.isFinite = true) (hne : value n ≠ 0) :
    (remainder x n).isFinite = true ∧ value (remainder x n) = odd (residue |value n|) (value x) := by
  have hlt := Binary.abs_odd_residue_lt (abs_pos.2 hne) (value x)
  exact encode_spec ((regular_decode hx).remainder (regular_decode hn) hne)
    (hlt.le.trans (abs_value_le n))

/-- The size of a number. -/
lemma abs_spec (hn : n.isFinite = true) : n.abs.isFinite = true ∧ value n.abs = |value n| := by
  refine encode_spec (regular_decode hn).abs ?_
  rw [abs_abs]
  exact abs_value_le n

/-- **A number is wrapped to its rounded remainder.** Only the sum with the divisor, for a negative
number, may be rounded.

**Proof sketch.** The remainder of the division is exact and has the sign of the number. If it is
negative, one period is added, which gives the remainder without the sign, but for the rounding of
this sum. -/
theorem wrap_spec (hx : x.isFinite = true) (hn : n.isFinite = true) (hpos : 0 < value n) :
    (wrap x n).isFinite = true ∧
      value (wrap x n) = approx .binary32 (residue (value n) (value x)) := by
  obtain ⟨hfinite, hvalue⟩ := remainder_spec hx hn hpos.ne'
  obtain ⟨habs, hsize⟩ := abs_spec hn
  rw [abs_of_pos hpos] at hvalue hsize
  have hresidue := Binary.residue_eq_odd_residue hpos (value x)
  rw [← hvalue] at hresidue
  have hnegative : remainder x n < 0 ↔ value (remainder x n) < 0 := by
    rw [lt_iff hfinite (by rfl), value_zero]
  have hhalf : (0 : ℚ) < 2 ^ Binary.maxExponent .binary32 / 2 := by positivity
  have hmost : |approx .binary32 (residue (value n) (value x))| ≤ greatest .binary32 := by
    refine Binary.abs_approx_le_greatest (by decide) ?_
    rw [abs_of_nonneg (residue_nonneg hpos _)]
    linarith [residue_lt hpos (value x), (abs_le.1 (abs_value_le n)).2]
  rw [wrap]
  simp only [hnegative]
  split
  · next hlt =>
    rw [if_pos hlt] at hresidue
    rw [hresidue, ← hsize] at hmost ⊢
    exact add_spec hfinite habs hmost
  · next hge =>
    rw [if_neg hge] at hresidue
    rw [hresidue]
    exact ⟨hfinite, (approx_value hfinite).symm⟩

/-- **A number that is not negative is wrapped to its remainder**, and nothing is rounded. -/
theorem wrap_spec_of_nonneg (hx : x.isFinite = true) (hn : n.isFinite = true) (hpos : 0 < value n)
    (hnonneg : 0 ≤ value x) :
    (wrap x n).isFinite = true ∧ value (wrap x n) = residue (value n) (value x) := by
  obtain ⟨hfinite, hvalue⟩ := remainder_spec hx hn hpos.ne'
  rw [abs_of_pos hpos, Binary.odd_of_nonneg hnonneg] at hvalue
  obtain ⟨hwrapped, hrounded⟩ := wrap_spec hx hn hpos
  rw [← hvalue] at hrounded ⊢
  exact ⟨hwrapped, hrounded.trans (approx_value hfinite)⟩

section

variable (hx : x.isFinite = true) (hn : n.isFinite = true) (hpos : 0 < value n)

include hx hn hpos

/-- A wrapped number lies between zero and the divisor. It may be the divisor. -/
lemma value_wrap_mem_Icc : value (wrap x n) ∈ Set.Icc 0 (value n) := by
  have hlow := Binary.approx_mono .binary32 (residue_nonneg hpos (value x))
  have hhigh := Binary.approx_mono .binary32 (residue_lt hpos (value x)).le
  rw [Binary.approx_zero] at hlow
  rw [approx_value hn] at hhigh
  rw [(wrap_spec hx hn hpos).2]
  exact ⟨hlow, hhigh⟩

/-- **Which numbers are wrapped below the divisor**: all but the negative ones that are too small to be
told apart from the divisor.

**Proof sketch.** A number that is not negative, or not nearer to zero than the divisor, has an exact
remainder. Any other one is wrapped to its rounded sum with the divisor. -/
theorem value_wrap_lt_iff : value (wrap x n) < value n ↔
    ¬(value x < 0 ∧ approx .binary32 (value x + value n) = value n) := by
  have hvalue := (wrap_spec hx hn hpos).2
  rcases lt_or_ge (value x) 0 with hneg | hnonneg
  · rcases lt_or_ge (-value n) (value x) with hnear | hfar
    · have hresidue : residue (value n) (value x) = value x + value n := by
        rw [← Binary.residue_add_self hpos]
        exact Binary.residue_eq_self hpos _ (by linarith) (by linarith)
      rw [hresidue] at hvalue
      rw [← hvalue, and_iff_right hneg]
      exact (value_wrap_mem_Icc hx hn hpos).2.lt_iff_ne
    · have hsize : value n ≤ |value x| := by
        rw [abs_of_neg hneg]
        linarith
      have hexact := (regular_decode hx).approx_residue_of_le (regular_decode hn) hpos hsize
      have hsum := Binary.approx_mono .binary32 (show value x + value n ≤ 0 by linarith)
      rw [Binary.approx_zero] at hsum
      change approx .binary32 (residue (value n) (value x)) = _ at hexact
      rw [hvalue, hexact]
      exact iff_of_true (residue_lt hpos _) fun h => absurd h.2 (hsum.trans_lt hpos).ne
  · rw [(wrap_spec_of_nonneg hx hn hpos hnonneg).2]
    exact iff_of_true (residue_lt hpos _) fun h => absurd h.1 (not_lt.2 hnonneg)

/-- Zeros are wrapped to themselves, with their signs. -/
lemma wrap_eq_self_of_value_eq_zero (hzero : value x = 0) : wrap x n = x := by
  obtain ⟨s, hs⟩ := (regular_decode hx).exists_zero hzero
  have hremainder : remainder x n = x := by
    have hdivisor : remainderDecoded (.zero s) (decode n) = .zero s := by
      have hregular := regular_decode hn
      rw [value] at hpos
      generalize decode n = v at *
      cases hregular with
      | zero t => exact absurd hpos (lt_irrefl _)
      | finite => rfl
    rw [remainder, hs, hdivisor, ← hs, encode_decode]
  have hrest : ¬x < 0 := by
    rw [lt_iff hx (by rfl), hzero, value_zero]
    exact lt_irrefl _
  rw [wrap, hremainder, if_neg hrest]

/-- **Which numbers wrapping leaves as they are**: those from zero on, below the divisor. -/
theorem wrap_eq_self_iff : wrap x n = x ↔ 0 ≤ value x ∧ value x < value n := by
  constructor
  · intro heq
    have hnonneg : 0 ≤ value x := by
      rw [← heq]
      exact (value_wrap_mem_Icc hx hn hpos).1
    refine ⟨hnonneg, ?_⟩
    rw [← heq, (wrap_spec_of_nonneg hx hn hpos hnonneg).2]
    exact residue_lt hpos _
  · rintro ⟨hnonneg, hlt⟩
    obtain ⟨hfinite, hvalue⟩ := wrap_spec_of_nonneg hx hn hpos hnonneg
    rw [Binary.residue_eq_self hpos _ hnonneg hlt] at hvalue
    by_cases hzero : value x = 0
    · exact wrap_eq_self_of_value_eq_zero hx hn hpos hzero
    · exact eq_of_value_eq hfinite hx hvalue (by rwa [hvalue])

end

/-- Counts up to `2 ^ 24` are values of single precision. -/
lemma rounded_natCast {k : ℕ} (h : k ≤ 2 ^ 24) : Binary.rounded .binary32 k = k := by
  have hexact {m : ℕ} {e : ℤ} (hm : m < 2 ^ 24) (he : -149 ≤ e) :
      Binary.rounded .binary32 (m * 2 ^ e) = m * 2 ^ e :=
    Binary.rounded_of_representable hm he
  by_cases hlt : k < 2 ^ 24
  · have hk := hexact (e := 0) hlt (by decide)
    rwa [zpow_zero, mul_one] at hk
  · obtain rfl : k = 2 ^ 24 := by omega
    have htop := hexact (m := 2 ^ 23) (e := 1) (by decide) (by decide)
    norm_num at htop ⊢
    exact htop

/-- A count is converted without rounding up to `2 ^ 24`. -/
theorem toFloat32_spec {k : ℕ} (h : k ≤ 2 ^ 24) :
    k.toUInt64.toFloat32.isFinite = true ∧ value k.toUInt64.toFloat32 = k := by
  have hcast : (k : ℚ) ≤ 2 ^ 24 := by exact_mod_cast h
  have hgreatest : (2 : ℚ) ^ 24 ≤ Binary.greatest .binary32 := by decide +kernel
  have hk : k.toUInt64.toNat = k := Nat.mod_eq_of_lt (h.trans_lt (by decide))
  have hnormalized := Binary.normalize_spec .binary32 k 0 .positive
  rw [Int.cast_natCast, zpow_zero, mul_one, Binary.approx_of_nonneg _ (by positivity),
    rounded_natCast h] at hnormalized
  have hdecoded : k.toUInt64.toFloat32 =
      encode (Float.Model.UnpackedFloat.normalize .binary32 k 0 .positive) := by
    show encode (Float.Model.UnpackedFloat.normalize .binary32 k.toUInt64.toNat 0 .positive) = _
    rw [hk]
  rw [hdecoded]
  refine encode_spec hnormalized ?_
  rw [abs_of_nonneg (by positivity)]
  exact hcast.trans hgreatest

end Ribbon.Binary32
