import Ribbon.Proofs.Binary.Arithmetic
import Ribbon.Proofs.Binary.Remainder

/-!
# Blends of two numbers

A number part of the way from one number to another is computed with three roundings: of the difference,
of the part of it, and of the sum. None of them leads beyond the two ends. A difference that has been
rounded up is a single step of the format above the exact one, and a part of it, however large, is at
least that step smaller.

## Main definitions

* `Ribbon.Binary.blended` — the rounded blend.

## Main results

* `Ribbon.Binary.rounded_mul_lt` — a part of a number is rounded to less than the number.
* `Ribbon.Binary.Regular.rounded_part_le` — a part of a rounded difference is within the exact
  difference.
* `Ribbon.Binary.Regular.blended_mem_uIcc` — a blend lies between its ends.
* `Ribbon.Binary32.blend_spec` — the same in single precision.
-/

set_option relaxedAutoImplicit false
set_option autoImplicit false

namespace Ribbon.Binary

open Float.Model (Format UnpackedFloat)

variable {spec : Format} {u v : UnpackedFloat} {f : ℚ}

/-! ## Parts of a number -/

section

variable (hnonneg : 0 ≤ f) (hf : f ≤ 1 - 1 / 2 ^ spec.mantissaBits)

include hnonneg hf

/-- **A part of a number is rounded to less than the number**, unless the number is one of the least.

**Proof sketch.** What is missing from the whole is a larger portion than rounding can give back. A part
that is too small for this estimate is rounded to a power of two below the number at most. -/
theorem rounded_mul_lt {d : ℚ} (hd : 2 ^ (spec.minExponent + spec.mantissaBits) ≤ d) :
    rounded spec (d * f) < d := by
  have hpos : 0 < d := lt_of_lt_of_le (by positivity) hd
  rcases le_total (2 ^ (spec.minExponent + spec.mantissaBits - 1)) (d * f) with hnormal | hsmall
  · have herror := (abs_le.1 (abs_rounded_sub_le hnormal)).2
    have hpart : d * f ≤ d * (1 - 1 / 2 ^ spec.mantissaBits) :=
      mul_le_mul_of_nonneg_left hf hpos.le
    calc rounded spec (d * f)
        ≤ d * f * (1 + 1 / 2 ^ spec.mantissaBits) := by
          rw [div_eq_mul_one_div] at herror
          linarith
      _ ≤ d * (1 - 1 / 2 ^ spec.mantissaBits) * (1 + 1 / 2 ^ spec.mantissaBits) := by gcongr
      _ = d - d * (1 / 2 ^ spec.mantissaBits) ^ 2 := by ring
      _ < d := sub_lt_self d (by positivity)
  · have hbits : 1 ≤ spec.mantissaBits := by simp [Format.mantissaBits]
    have hmono := rounded_monotoneOn spec (Set.mem_Ici.2 (mul_nonneg hpos.le hnonneg))
      (Set.mem_Ici.2 (by positivity)) hsmall
    rw [rounded_two_zpow spec (by omega)] at hmono
    calc rounded spec (d * f)
        ≤ 2 ^ (spec.minExponent + spec.mantissaBits - 1) := hmono
      _ < 2 ^ (spec.minExponent + spec.mantissaBits) :=
          zpow_lt_zpow_right₀ (by norm_num) (by omega)
      _ ≤ d := hd

end

/-! ## Differences -/

/-- A number of the format has no digits behind the least exponent. -/
lemma Regular.exists_units (hu : Regular spec u) :
    ∃ k : ℤ, value u = k * 2 ^ spec.minExponent := by
  cases hu with
  | zero s => exact ⟨0, by simp⟩
  | finite s m e hpos hcanonical =>
    obtain ⟨k, rfl⟩ := Int.le.dest hcanonical.minExponent_le
    refine ⟨s.apply m * 2 ^ k, ?_⟩
    rw [value_finite, signed_mul_zpow_add]

section

variable (hu : Regular spec u) (hv : Regular spec v) (hle : value v ≤ value u)

include hu hv hle

/-- A small difference is exact. -/
lemma Regular.rounded_sub_of_lt
    (hlt : value u - value v < 2 ^ (spec.minExponent + spec.mantissaBits)) :
    rounded spec (value u - value v) = value u - value v := by
  obtain ⟨i, hi⟩ := hu.exists_units
  obtain ⟨j, hj⟩ := hv.exists_units
  have hpow : (0 : ℚ) < 2 ^ spec.minExponent := by positivity
  have hunits : value u - value v = ((i - j : ℤ) : ℚ) * 2 ^ spec.minExponent := by
    rw [hi, hj]
    push_cast
    ring
  rw [← sub_nonneg, hunits] at hle
  rw [hunits] at hlt ⊢
  obtain ⟨n, hn⟩ := Int.eq_ofNat_of_zero_le
    (by exact_mod_cast nonneg_of_mul_nonneg_left hle hpow : 0 ≤ i - j)
  rw [hn, Int.cast_natCast] at hlt ⊢
  rw [add_comm, zpow_add₀ (by norm_num), zpow_natCast, mul_lt_mul_iff_left₀ hpow] at hlt
  exact rounded_of_representable (by exact_mod_cast hlt) le_rfl

variable (hnonneg : 0 ≤ f) (hf : f ≤ 1 - 1 / 2 ^ spec.mantissaBits)

include hnonneg hf

/-- **A part of a rounded difference does not exceed the exact difference.**

**Proof sketch.** A small difference is exact. A part of a large one that exceeded the exact difference
would lie between it and the rounded one, where there is no number of the format but the rounded
difference itself; and the part has become smaller than that. -/
theorem Regular.rounded_part_le :
    rounded spec (rounded spec (value u - value v) * f) ≤ value u - value v := by
  have hdiff : 0 ≤ value u - value v := sub_nonneg.2 hle
  have hmono := rounded_monotoneOn spec
  rcases lt_or_ge (value u - value v) (2 ^ (spec.minExponent + spec.mantissaBits)) with hlt | hge
  · have hexact := hu.rounded_sub_of_lt hv hle hlt
    have hone : f ≤ 1 := hf.trans (sub_le_self _ (by positivity))
    have hpart := hmono (Set.mem_Ici.2 (mul_nonneg hdiff hnonneg)) (Set.mem_Ici.2 hdiff)
      (mul_le_of_le_one_right hdiff hone)
    rwa [hexact] at hpart ⊢
  · have hlarge := hmono (Set.mem_Ici.2 (by positivity)) (Set.mem_Ici.2 hdiff) hge
    rw [rounded_two_zpow spec (by omega)] at hlarge
    by_contra hnot
    have hexceeds := (not_le.1 hnot).le
    have hagain := hmono (Set.mem_Ici.2 hdiff) (Set.mem_Ici.2 (hdiff.trans hexceeds)) hexceeds
    rw [rounded_rounded spec (mul_nonneg (rounded_nonneg spec hdiff) hnonneg)] at hagain
    exact absurd (rounded_mul_lt hnonneg hf hlarge) (not_lt.2 hagain)

end

/-! ## Blends -/

variable (spec) in
/-- The number a part `f` of the way from `a` to `b`, rounded after every operation. -/
def blended (a b f : ℚ) : ℚ :=
  approx spec (a - approx spec (approx spec (a - b) * f))

variable (spec) in
/-- On the other side of zero blends are the same. -/
lemma blended_neg (a b f : ℚ) : blended spec (-a) (-b) f = -blended spec a b f := by
  have hdiff : approx spec (-a - -b) = -approx spec (a - b) := by
    rw [← approx_neg]
    congr 1
    ring
  have hsum (p : ℚ) : -a - -p = -(a - p) := by ring
  rw [blended, hdiff, neg_mul, approx_neg, hsum, approx_neg, blended]

/-- No part of the way leads nowhere. -/
lemma Regular.blended_zero (hu : Regular spec u) (b : ℚ) :
    blended spec (value u) b 0 = value u := by
  rw [blended, mul_zero, approx_zero, sub_zero, hu.approx_value]

section

variable (hu : Regular spec u) (hv : Regular spec v) (hnonneg : 0 ≤ f)
  (hf : f ≤ 1 - 1 / 2 ^ spec.mantissaBits)

include hu hv hnonneg hf

/-- A blend from a number down to another one lies between them. -/
lemma Regular.blended_mem_Icc (hle : value v ≤ value u) :
    blended spec (value u) (value v) f ∈ Set.Icc (value v) (value u) := by
  have hdiff : 0 ≤ value u - value v := sub_nonneg.2 hle
  have hproduct := mul_nonneg (rounded_nonneg spec hdiff) hnonneg
  have hpart := hu.rounded_part_le hv hle hnonneg hf
  have hpositive := rounded_nonneg spec hproduct
  rw [blended, approx_of_nonneg spec hdiff, approx_of_nonneg spec hproduct]
  constructor
  · rw [← hv.approx_value]
    exact approx_mono spec (by rw [hv.approx_value]; linarith)
  · conv_rhs => rw [← hu.approx_value]
    exact approx_mono spec (by linarith)

/-- **A blend lies between its ends**, although it is rounded three times. -/
theorem Regular.blended_mem_uIcc :
    blended spec (value u) (value v) f ∈ Set.uIcc (value u) (value v) := by
  rcases le_total (value v) (value u) with hle | hle
  · rw [Set.uIcc_of_ge hle]
    exact hu.blended_mem_Icc hv hnonneg hf hle
  · obtain ⟨hun, hu'⟩ := hu.neg
    obtain ⟨hvn, hv'⟩ := hv.neg
    have hmem := hun.blended_mem_Icc hvn hnonneg hf (by rw [hu', hv']; exact neg_le_neg hle)
    rw [hu', hv', blended_neg, Set.mem_Icc, neg_le_neg_iff, neg_le_neg_iff] at hmem
    rw [Set.uIcc_of_le hle]
    exact ⟨hmem.2, hmem.1⟩

end

end Ribbon.Binary

namespace Ribbon.Binary32

open Ribbon.Binary (blended greatest)

/-! ## Single precision -/

/-- **A blend of numbers that are not too large is a number between them.** The difference of the two
can be encoded, and so can every part of it.

**Proof sketch.** The difference, the portion and the result are rounded one after the other. None of
them is too large: the portion is no larger than the difference, and the result lies between two
numbers (`Regular.blended_mem_uIcc`). -/
theorem blend_spec {x y f : Float32} (hx : x.isFinite = true) (hy : y.isFinite = true)
    (hsize : |value x - value y| ≤ greatest .binary32) (hf : f.isFinite = true)
    (hnonneg : 0 ≤ value f) (hlt : value f ≤ 1 - 1 / 2 ^ 24) :
    (x - (x - y) * f).isFinite = true ∧
      value (x - (x - y) * f) = blended .binary32 (value x) (value y) (value f) ∧
      value (x - (x - y) * f) ∈ Set.uIcc (value x) (value y) := by
  have hhalf : (0 : ℚ) < 2 ^ Binary.maxExponent .binary32 / 2 := by positivity
  have hbound {q : ℚ} (hq : |q| ≤ greatest .binary32) :
      |Binary.approx .binary32 q| ≤ greatest .binary32 :=
    Binary.abs_approx_le_greatest (by decide) (by linarith)
  obtain ⟨hdiff, hvalue⟩ := sub_spec hx hy (hbound hsize)
  have hone : value f ≤ 1 := hlt.trans (by norm_num)
  have hpart : |value (x - y) * value f| ≤ greatest .binary32 := by
    rw [abs_mul, abs_of_nonneg hnonneg]
    exact (mul_le_of_le_one_right (abs_nonneg _) hone).trans (abs_value_le _)
  obtain ⟨hproduct, hvalue'⟩ := mul_spec hdiff hf (hbound hpart)
  have hmem := (regular_decode hx).blended_mem_uIcc (regular_decode hy) hnonneg hlt
  have hsteps : blended .binary32 (value x) (value y) (value f) =
      Binary.approx .binary32 (value x - value ((x - y) * f)) := by
    rw [blended, hvalue', hvalue]
  change blended .binary32 (value x) (value y) (value f) ∈ Set.uIcc (value x) (value y) at hmem
  rw [hsteps] at hmem
  obtain ⟨hfinite, hblend⟩ := sub_spec hx hproduct (by
    have hmost := abs_le.1 (abs_value_le x)
    have hmost' := abs_le.1 (abs_value_le y)
    rw [abs_le]
    rcases Set.mem_uIcc.1 hmem with ⟨hlow, hhigh⟩ | ⟨hlow, hhigh⟩ <;> constructor <;> linarith)
  rw [hsteps, hblend]
  exact ⟨hfinite, rfl, hmem⟩

end Ribbon.Binary32
