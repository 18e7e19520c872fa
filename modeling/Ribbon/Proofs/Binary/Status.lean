import Ribbon.Proofs.Binary.Rounding

/-!
# Finite, infinite or no number

When a result in single precision is no number, and when it is finite. Sums and differences with a
finite number, and products with a finite number that is not zero, are numbers if the other operand
is. An infinity times zero is none.

## Main results

* `Ribbon.Binary32.isNaN_add`, `Ribbon.Binary32.isNaN_sub` — sums and differences.
* `Ribbon.Binary32.isNaN_zero_mul` — zero times a number.
* `Ribbon.Binary32.isFinite_unit_mul`, `Ribbon.Binary32.isFinite_div_two` — what stays finite.
-/

set_option relaxedAutoImplicit false
set_option autoImplicit false

namespace Ribbon.Binary

open Float.Model (Format UnpackedFloat)
open Float.Model.UnpackedFloat

variable {spec : Format} (u v : UnpackedFloat)

/-! ## Decoded values -/

/-- Encoding a number never loses it, though it may become an infinity or a zero. -/
@[simp]
lemma isNaN_unpack_pack : (unpack spec (pack spec u)).isNaN = u.isNaN := by
  have hsmall (s : Sign) {b : BitVec spec.exponentBits} (hb : b ≠ -1#_)
      (m : BitVec spec.mantissaBitsWithoutImplicit) :
      (unpack spec (packComponents spec s b m)).isNaN = false := by
    simp only [unpack, unpackExponent_packComponents, if_neg hb]
    split
    · split <;> rfl
    · rfl
  cases u with
  | notANumber | infinity | zero => simp [pack, UnpackedFloat.isNaN]
  | finite s m e hpos =>
    rw [pack]
    split
    · rw [unpack_packedInfinity]
      rfl
    · next hlt =>
      split
      · refine hsmall s (fun h => ?_) _
        have hnat := congrArg BitVec.toNat h
        rw [BitVec.toNat_ofNat, Nat.mod_eq_of_lt (by omega), BitVec.neg_one_eq_allOnes,
          BitVec.toNat_allOnes] at hnat
        omega
      · exact hsmall s zero_ne_neg_one _

/-- Rounding gives a number or an infinity. -/
lemma isNaN_roundWithAccuracy (s : Sign) (m : ℕ) (e : ℤ) (accuracy : Accuracy) :
    (roundWithAccuracy spec s m e accuracy).isNaN = false := by
  simp only [roundWithAccuracy]
  split <;> rfl

/-- A mantissa and an exponent give a number or an infinity. -/
lemma isNaN_normalize (m e : ℤ) (s : Sign) : (UnpackedFloat.normalize spec m e s).isNaN = false := by
  rw [UnpackedFloat.normalize]
  split
  · exact isNaN_roundWithAccuracy _ _ _ _
  · rfl
  · exact isNaN_roundWithAccuracy _ _ _ _

/-- The sum with a finite number is none only if the other operand is none. -/
lemma isNaN_add_of_isFinite (h : v.isFinite = true) :
    (UnpackedFloat.add spec u v).isNaN = u.isNaN := by
  cases v with
  | notANumber | infinity => cases h
  | zero t =>
    cases u with
    | zero s => cases s <;> cases t <;> rfl
    | _ => rfl
  | finite =>
    cases u with
    | finite => exact isNaN_normalize _ _ _
    | _ => rfl

/-- The difference with a finite number is none only if the other operand is none. -/
lemma isNaN_sub_of_isFinite (h : v.isFinite = true) :
    (UnpackedFloat.sub spec u v).isNaN = u.isNaN := by
  cases v with
  | notANumber | infinity => cases h
  | zero t =>
    cases u with
    | zero s => cases s <;> cases t <;> rfl
    | _ => rfl
  | finite =>
    cases u with
    | finite => exact isNaN_normalize _ _ _
    | _ => rfl

/-- The product with a finite number that is not zero is none only if the other operand is none. -/
lemma isNaN_mul_finite (s : Sign) (m : ℕ) (e : ℤ) (hpos : 0 < m) :
    (UnpackedFloat.mul spec u (.finite s m e hpos)).isNaN = u.isNaN := by
  cases u with
  | finite => exact isNaN_roundWithAccuracy _ _ _ _
  | _ => rfl

end Ribbon.Binary

namespace Ribbon.Binary32

open Float.Model (Format UnpackedFloat)
open Ribbon.Binary

variable {x y : Float32}

/-! ## Single precision -/

/-- A sum is the sum of the decoded operands, encoded. -/
lemma add_eq : x + y = encode (.add .binary32 (decode x) (decode y)) := rfl

/-- A difference is the difference of the decoded operands, encoded. -/
lemma sub_eq : x - y = encode (.sub .binary32 (decode x) (decode y)) := rfl

/-- A product is the product of the decoded operands, encoded. -/
lemma mul_eq : x * y = encode (.mul .binary32 (decode x) (decode y)) := rfl

/-- A quotient is the quotient of the decoded operands, encoded. -/
lemma div_eq : x / y = encode (.div .binary32 (decode x) (decode y)) := rfl

/-- Encoding neither makes a NaN nor loses one. -/
lemma isNaN_encode (u : UnpackedFloat) : (encode u).isNaN = u.isNaN :=
  isNaN_unpack_pack u

/-- What can be encoded is finite after encoding if it was before. -/
lemma isFinite_encode {u : UnpackedFloat} (h : Fits .binary32 u) :
    (encode u).isFinite = u.isFinite :=
  congrArg UnpackedFloat.isFinite (decode_encode h)

/-- What is finite is a number. -/
lemma isNaN_of_isFinite (h : x.isFinite = true) : x.isNaN = false := by
  change (decode x).isFinite = true at h
  change (decode x).isNaN = false
  cases hx : decode x <;> rw [hx] at h <;> first | rfl | cases h

/-- Zero has the positive sign. -/
lemma decode_zero : decode 0 = .zero .positive := by rfl

/-- The mantissa of one is the least that has all its digits. -/
lemma decode_one : decode 1 = .finite .positive (2 ^ 23) (-23) (by decide) := by rfl

/-- Its opposite differs in the sign. -/
lemma decode_neg_one : decode (-1) = .finite .negative (2 ^ 23) (-23) (by decide) := by rfl

/-- Two has the mantissa of one and the next exponent. -/
lemma decode_two : decode 2 = .finite .positive (2 ^ 23) (-22) (by decide) := by rfl

/-- The sum with a finite number is none only if the other operand is none. -/
theorem isNaN_add (h : y.isFinite = true) : (x + y).isNaN = x.isNaN := by
  rw [add_eq, isNaN_encode]
  exact isNaN_add_of_isFinite _ _ h

/-- The difference with a finite number is none only if the other operand is none. -/
theorem isNaN_sub (h : y.isFinite = true) : (x - y).isNaN = x.isNaN := by
  rw [sub_eq, isNaN_encode]
  exact isNaN_sub_of_isFinite _ _ h

/-- A sum with what is no number is none. -/
lemma isNaN_add_of_isNaN (h : y.isNaN = true) : (x + y).isNaN = true := by
  rw [add_eq, isNaN_encode]
  change (decode y).isNaN = true at h
  cases hy : decode y <;> rw [hy] at h <;> cases h
  cases decode x <;> rfl

/-- A difference with what is no number is none. -/
lemma isNaN_sub_of_isNaN (h : y.isNaN = true) : (x - y).isNaN = true := by
  rw [sub_eq, isNaN_encode]
  change (decode y).isNaN = true at h
  cases hy : decode y <;> rw [hy] at h <;> cases h
  cases decode x <;> rfl

/-- A doubled number is a number. -/
lemma isNaN_mul_two : (x * 2).isNaN = x.isNaN := by
  rw [mul_eq, isNaN_encode, decode_two]
  exact isNaN_mul_finite _ _ _ _ _

/-- Zero times a number is a number if and only if that is finite. -/
theorem isNaN_zero_mul : (0 * x).isNaN = !x.isFinite := by
  rw [mul_eq, isNaN_encode, decode_zero]
  change (UnpackedFloat.mul .binary32 (.zero .positive) (decode x)).isNaN = !(decode x).isFinite
  cases decode x <;> rfl

/-- Zero times a finite number is finite. -/
lemma isFinite_zero_mul (h : x.isFinite = true) : (0 * x).isFinite = true := by
  rw [mul_eq, decode_zero]
  change (decode x).isFinite = true at h
  cases hx : decode x with
  | notANumber | infinity => rw [hx] at h; cases h
  | zero s => exact isFinite_encode (.zero _)
  | finite s m e hpos => exact isFinite_encode (.zero _)

/-- A finite number times one, with either sign, is finite: nothing is rounded. -/
theorem isFinite_unit_mul {s : UnpackedFloat.Sign}
    (hy : decode y = .finite s (2 ^ 23) (-23) (by decide)) (h : x.isFinite = true) :
    (y * x).isFinite = true := by
  rw [mul_eq, hy]
  have hfits := fits_decode x
  change (decode x).isFinite = true at h
  cases hx : decode x with
  | notANumber | infinity => rw [hx] at h; cases h
  | zero t => exact isFinite_encode (.zero _)
  | finite t m e hpos =>
    rw [hx] at hfits
    cases hfits with
    | finite _ _ _ _ hcanonical hmax =>
      have hshows := shows_mul .binary32 (s := s) (t := t) (e := -23) (f := e)
        (by decide : 0 < 2 ^ 23) hpos (Nat.le_mul_of_pos_right _ hpos)
      have hone : ((2 ^ 23 : ℕ) : ℚ) * 2 ^ (-23 : ℤ) = 1 := by norm_num
      rw [hone, one_mul] at hshows
      rw [hshows.eq_of_rounded hpos hcanonical hcanonical.rounded_eq]
      exact isFinite_encode (.finite _ _ _ _ hcanonical hmax)

/-- The half of a number is below the power of two that ends the range. -/
lemma half_lt_two_zpow {m : ℕ} {e : ℤ} (hcanonical : Canonical .binary32 m e) (hmax : e ≤ 104) :
    (m * 2 ^ e : ℚ) / ((2 ^ 23 : ℕ) * 2 ^ (-22 : ℤ)) <
      2 ^ (maxExponent .binary32 + (Format.binary32.mantissaBitsWithoutImplicit : ℤ)) := by
  have hm : (m : ℚ) < 2 ^ 24 := by exact_mod_cast hcanonical.lt
  have he : (2 : ℚ) ^ e ≤ 2 ^ (104 : ℤ) := zpow_le_zpow_right₀ (by norm_num) hmax
  have htop : maxExponent .binary32 + (Format.binary32.mantissaBitsWithoutImplicit : ℤ) = 127 := by
    rfl
  rw [htop]
  calc (m * 2 ^ e : ℚ) / ((2 ^ 23 : ℕ) * 2 ^ (-22 : ℤ))
      < 2 ^ 24 * 2 ^ (104 : ℤ) / ((2 ^ 23 : ℕ) * 2 ^ (-22 : ℤ)) :=
        div_lt_div_of_pos_right (mul_lt_mul hm he (by positivity) (by positivity)) (by positivity)
    _ = 2 ^ (127 : ℤ) := by norm_num1

/-- The half of a number is finite if and only if the number is. -/
theorem isFinite_div_two : (x / 2).isFinite = x.isFinite := by
  rw [div_eq, decode_two]
  have hfits := fits_decode x
  change _ = (decode x).isFinite
  cases hx : decode x with
  | notANumber => exact isFinite_encode .notANumber
  | infinity s => exact isFinite_encode (.infinity _)
  | zero s => exact isFinite_encode (.zero _)
  | finite s m e hpos =>
    rw [hx] at hfits
    cases hfits with
    | finite _ _ _ _ hcanonical hmax =>
      have hshows := shows_div .binary32 (s := s) (t := .positive) (e := e) (f := -22)
        hpos (by decide : 0 < 2 ^ 23)
      have hfit := hshows.fits (by decide) (by positivity) (half_lt_two_zpow hcanonical hmax)
      rw [isFinite_encode hfit]
      generalize UnpackedFloat.div _ _ _ = u at hshows
      cases hshows <;> rfl

end Ribbon.Binary32
