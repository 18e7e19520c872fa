import Ribbon.Proofs.Binary.Status

/-!
# The values of decoded numbers

A decoded number that is finite stands for a rational number. Numbers of one format are compared by
their values, and the two zeros are equal. What a format makes of a rational number is the nearest of
its values, for negative numbers as for positive ones.

## Main definitions

* `Ribbon.Binary.value` — the rational number that a decoded number stands for.
* `Ribbon.Binary.Regular` — the finite numbers of a format, with exponents as large as needed.
* `Ribbon.Binary.greatest` — the greatest number that can be encoded.
* `Ribbon.Binary.approx` — the nearest value of a format.
* `Ribbon.Binary32.value` — the value of a single-precision number.

## Main results

* `Ribbon.Binary.Regular.compare_eq` — numbers are compared by their values.
* `Ribbon.Binary.Regular.fits` — what is not too large can be encoded.
* `Ribbon.Binary.approx_mono` — approximation keeps the order.
* `Ribbon.Binary32.lt_iff`, `Ribbon.Binary32.le_iff`, `Ribbon.Binary32.beq_iff` — single-precision
  numbers are compared by their values.
* `Ribbon.Binary32.eq_of_value_eq`, `Ribbon.Binary32.eq_zero_or_of_value_eq_zero` — only zeros have a
  value in common.
-/

set_option relaxedAutoImplicit false
set_option autoImplicit false

namespace Ribbon.Binary

open Float.Model (Format UnpackedFloat)
open Float.Model.UnpackedFloat

variable {spec : Format} {u v : UnpackedFloat}

/-! ## Signs -/

/-- A number with a sign. -/
def signed : Sign → ℚ → ℚ
  | .negative, x => -x
  | .positive, x => x

/-- Zero is the same with either sign. -/
@[simp]
lemma signed_zero (s : Sign) : signed s 0 = 0 := by
  cases s <;> simp [signed]

/-- A sign does not change the size of a number. -/
@[simp]
lemma abs_signed (s : Sign) (x : ℚ) : |signed s x| = |x| := by
  cases s <;> simp [signed]

/-- The opposite sign makes the opposite number. -/
@[simp]
lemma signed_neg (s : Sign) (x : ℚ) : signed (-s) x = -signed s x := by
  cases s
  · exact (neg_neg x).symm
  · rfl

/-- Signs are multiplied with their numbers. -/
lemma signed_mul (s t : Sign) (x y : ℚ) : signed (s * t) (x * y) = signed s x * signed t y := by
  cases s <;> cases t
  exacts [(neg_mul_neg x y).symm, (neg_mul x y).symm, (mul_neg x y).symm, rfl]

/-- A signed mantissa is the mantissa of a signed number. -/
lemma apply_mul_zpow (s : Sign) (m : ℕ) (e : ℤ) :
    ((s.apply m : ℤ) : ℚ) * 2 ^ e = signed s (m * 2 ^ e) := by
  cases s <;> simp [signed, Sign.apply]

/-- The same on a smaller exponent. -/
lemma signed_mul_zpow_add (s : Sign) (m : ℕ) (e : ℤ) (k : ℕ) :
    signed s (m * 2 ^ (e + k)) = ((s.apply m * 2 ^ k : ℤ) : ℚ) * 2 ^ e := by
  rw [← apply_mul_zpow, zpow_add₀ (by norm_num), zpow_natCast]
  push_cast
  ring

/-- The odd function that agrees with `f` on the numbers that are not negative. -/
def odd (f : ℚ → ℚ) (x : ℚ) : ℚ :=
  if x < 0 then -f (-x) else f x

section

variable {f : ℚ → ℚ}

/-- The odd function is the given one where it extends it. -/
lemma odd_of_nonneg {x : ℚ} (hx : 0 ≤ x) : odd f x = f x := by
  rw [odd, if_neg (not_lt.2 hx)]

/-- The odd function passes the sign of its argument on. -/
lemma odd_signed (hzero : f 0 = 0) (s : Sign) {x : ℚ} (hx : 0 ≤ x) :
    odd f (signed s x) = signed s (f x) := by
  cases s with
  | positive => exact odd_of_nonneg hx
  | negative =>
    rcases eq_or_lt_of_le hx with rfl | hpos
    · simp [signed, odd, hzero]
    · simp [signed, odd, hpos]

/-- The odd function is odd. -/
lemma odd_neg (hzero : f 0 = 0) (x : ℚ) : odd f (-x) = -odd f x := by
  rcases lt_trichotomy x 0 with hneg | rfl | hpos
  · rw [odd_of_nonneg (by linarith), odd, if_pos hneg, neg_neg]
  · simp [odd, hzero]
  · rw [odd_of_nonneg hpos.le, odd, if_pos (by linarith), neg_neg]

/-- The odd function is monotone if the given one is. -/
lemma odd_mono (hzero : f 0 = 0) (hf : MonotoneOn f (Set.Ici 0)) : Monotone (odd f) := by
  have hnonneg {x : ℚ} (hx : 0 ≤ x) : 0 ≤ f x := hzero ▸ hf (Set.mem_Ici.2 le_rfl) hx hx
  intro x y h
  rw [odd, odd]
  split
  · next hx =>
    have hfx := hnonneg (neg_nonneg.2 hx.le)
    split
    · next hy => exact neg_le_neg (hf (neg_nonneg.2 hy.le) (neg_nonneg.2 hx.le) (neg_le_neg h))
    · next hy =>
      have hfy := hnonneg (not_lt.1 hy)
      linarith
  · next hx =>
    rw [if_neg (by linarith)]
    exact hf (not_lt.1 hx) (Set.mem_Ici.2 (by linarith)) h

end

/-! ## Values -/

/-- The number that a decoded value stands for. Infinities and NaN stand for no number, and are given
zero. -/
def value : UnpackedFloat → ℚ
  | .finite s m e _ => signed s (m * 2 ^ e)
  | _ => 0

/-- Both zeros stand for zero. -/
@[simp]
lemma value_zero (s : Sign) : value (.zero s) = 0 := rfl

/-- A finite number stands for its mantissa times its power of two. -/
@[simp]
lemma value_finite (s : Sign) (m : ℕ) (e : ℤ) (hpos : 0 < m) :
    value (.finite s m e hpos) = signed s (m * 2 ^ e) := rfl

/-- A finite number with the negative sign is less than zero. -/
lemma value_negative_lt (m : ℕ) (e : ℤ) (hpos : 0 < m) : value (.finite .negative m e hpos) < 0 :=
  neg_lt_zero.2 (by positivity)

/-- The finite numbers of a format, with exponents as large as needed. -/
inductive Regular (spec : Format) : UnpackedFloat → Prop
  | zero (s : Sign) : Regular spec (.zero s)
  | finite (s : Sign) (m : ℕ) (e : ℤ) (hpos : 0 < m) (canonical : Canonical spec m e) :
      Regular spec (.finite s m e hpos)

/-- The finite numbers of a format are finite. -/
lemma Regular.isFinite (h : Regular spec u) : u.isFinite = true := by
  cases h <;> rfl

/-- A finite number that can be encoded is one of the format. -/
lemma Fits.regular (h : Fits spec u) (hfinite : u.isFinite = true) : Regular spec u := by
  cases h with
  | notANumber | infinity => cases hfinite
  | zero s => exact .zero s
  | finite s m e hpos hcanonical _ => exact .finite s m e hpos hcanonical

variable (spec) in
/-- The greatest number that can be encoded. -/
def greatest : ℚ :=
  (2 ^ spec.mantissaBits - 1) * 2 ^ maxExponent spec

variable (spec) in
/-- The greatest number is not negative. -/
lemma greatest_nonneg : 0 ≤ greatest spec := by
  have hone : (1 : ℚ) ≤ 2 ^ spec.mantissaBits := one_le_pow₀ (by norm_num)
  exact mul_nonneg (sub_nonneg.2 hone) (by positivity)

/-- A number of the format that is not too large can be encoded. -/
theorem Regular.fits (hspec : 1 < spec.exponentBits) (h : Regular spec u)
    (hle : |value u| ≤ greatest spec) : Fits spec u := by
  cases h with
  | zero s => exact .zero s
  | finite s m e hpos hcanonical =>
    refine .finite s m e hpos hcanonical ?_
    rcases hcanonical.full with hfull | rfl
    · have hdigits : (2 : ℚ) ^ spec.mantissaBitsWithoutImplicit ≤ m := by exact_mod_cast hfull
      have htop : (2 : ℚ) ^ spec.mantissaBitsWithoutImplicit * 2 ^ e <
          2 ^ spec.mantissaBits * 2 ^ maxExponent spec := by
        calc (2 : ℚ) ^ spec.mantissaBitsWithoutImplicit * 2 ^ e
            ≤ m * 2 ^ e := mul_le_mul_of_nonneg_right hdigits (by positivity)
          _ ≤ greatest spec := by
              rwa [value_finite, abs_signed, abs_of_pos (by positivity)] at hle
          _ < 2 ^ spec.mantissaBits * 2 ^ maxExponent spec :=
              mul_lt_mul_of_pos_right (by linarith) (by positivity)
      rw [two_pow_mantissaBitsWithoutImplicit_mul, two_pow_mantissaBits_mul] at htop
      have hexp := (zpow_lt_zpow_iff_right₀ (by norm_num : (1 : ℚ) < 2)).1 htop
      omega
    · have hbias := exponentBias_pos hspec
      rw [minExponent_eq, maxExponent]
      omega

/-- A number that can be encoded is not too large. -/
lemma Fits.abs_value_le (h : Fits spec u) : |value u| ≤ greatest spec := by
  cases h with
  | notANumber | infinity | zero => simpa [value] using greatest_nonneg spec
  | finite s m e hpos hcanonical hmax =>
    have hdigits : (m : ℚ) + 1 ≤ 2 ^ spec.mantissaBits := by exact_mod_cast hcanonical.lt
    have hone : (1 : ℚ) ≤ m := by exact_mod_cast hpos
    rw [value_finite, abs_signed, abs_of_pos (by positivity), greatest]
    exact mul_le_mul (by linarith) (zpow_le_zpow_right₀ (by norm_num) hmax) (by positivity)
      (by linarith)

/-! ## Comparisons -/

/-- Of two canonical forms the one with the larger exponent is larger. -/
lemma Canonical.lt_of_exponent_lt {m n : ℕ} {e f : ℤ} (hm : Canonical spec m e)
    (hn : Canonical spec n f) (h : e < f) : (m : ℚ) * 2 ^ e < n * 2 ^ f := by
  have hfull : (2 : ℚ) ^ spec.mantissaBitsWithoutImplicit ≤ n := by
    have hmin := hm.minExponent_le
    exact_mod_cast hn.full.resolve_right (by omega)
  have hdigits : (m : ℚ) < 2 ^ spec.mantissaBits := by exact_mod_cast hm.lt
  calc (m : ℚ) * 2 ^ e
      < 2 ^ spec.mantissaBits * 2 ^ e := mul_lt_mul_of_pos_right hdigits (by positivity)
    _ ≤ 2 ^ spec.mantissaBitsWithoutImplicit * 2 ^ f := two_pow_mantissaBits_mul_le spec h
    _ ≤ n * 2 ^ f := mul_le_mul_of_nonneg_right hfull (by positivity)

/-- Canonical forms are compared by their exponents first and by their mantissas then. -/
lemma Canonical.compare_eq {m n : ℕ} {e f : ℤ} (hm : Canonical spec m e)
    (hn : Canonical spec n f) :
    (compare e f).then (compare m n) = cmp ((m : ℚ) * 2 ^ e) (n * 2 ^ f) := by
  rcases lt_trichotomy e f with hlt | rfl | hgt
  · have hvalue := hm.lt_of_exponent_lt hn hlt
    rw [Int.compare_eq_lt.2 hlt, (cmp_eq_lt_iff _ _).2 hvalue, Ordering.lt_then]
  · have hpow : (0 : ℚ) < 2 ^ e := by positivity
    rw [cmp_mul_pos_right hpow, Int.compare_eq_eq.2 rfl, Ordering.eq_then]
    rcases lt_trichotomy m n with hmn | rfl | hnm
    · rw [Nat.compare_eq_lt.2 hmn, (cmp_eq_lt_iff _ _).2 (by exact_mod_cast hmn)]
    · rw [Nat.compare_eq_eq.2 rfl, cmp_self_eq_eq]
    · rw [Nat.compare_eq_gt.2 hnm, (cmp_eq_gt_iff _ _).2 (by exact_mod_cast hnm)]
  · have hvalue := hn.lt_of_exponent_lt hm hgt
    rw [Int.compare_eq_gt.2 hgt, (cmp_eq_gt_iff _ _).2 hvalue, Ordering.gt_then]

/-- **Numbers of a format are compared by their values.**

**Proof sketch.** Numbers with the same sign are compared by their canonical forms, for the negative ones
the other way round. Otherwise the signs decide, and zero is between them. -/
theorem Regular.compare_eq (hu : Regular spec u) (hv : Regular spec v) :
    u.compare v = some (cmp (value u) (value v)) := by
  cases hu with
  | zero s =>
    cases hv with
    | zero t => simp [UnpackedFloat.compare]
    | finite t n f hn _ =>
      have hpos : (0 : ℚ) < n * 2 ^ f := by positivity
      cases t with
      | positive =>
        exact congrArg some ((cmp_eq_lt_iff _ _).2 hpos).symm
      | negative =>
        exact congrArg some ((cmp_eq_gt_iff _ _).2 (neg_lt_zero.2 hpos)).symm
  | finite s m e hm hmc =>
    have hmpos : (0 : ℚ) < m * 2 ^ e := by positivity
    cases hv with
    | zero t =>
      cases s with
      | positive => exact congrArg some ((cmp_eq_gt_iff _ _).2 hmpos).symm
      | negative => exact congrArg some ((cmp_eq_lt_iff _ _).2 (neg_lt_zero.2 hmpos)).symm
    | finite t n f hn hnc =>
      have hnpos : (0 : ℚ) < n * 2 ^ f := by positivity
      have hcompare := hmc.compare_eq hnc
      cases s with
      | positive =>
        cases t with
        | positive => exact congrArg some hcompare
        | negative =>
          exact congrArg some ((cmp_eq_gt_iff _ _).2 ((neg_lt_zero.2 hnpos).trans hmpos)).symm
      | negative =>
        cases t with
        | positive =>
          exact congrArg some ((cmp_eq_lt_iff _ _).2 ((neg_lt_zero.2 hmpos).trans hnpos)).symm
        | negative =>
          have hneg : cmp (-(m * 2 ^ e : ℚ)) (-(n * 2 ^ f)) = cmp ((n : ℚ) * 2 ^ f) (m * 2 ^ e) := by
            simp only [cmp, cmpUsing, neg_lt_neg_iff]
          rw [UnpackedFloat.compare, hcompare, cmp_swap]
          exact congrArg some hneg.symm

/-- Only zeros have the value zero. -/
lemma Regular.exists_zero (h : Regular spec u) (hzero : value u = 0) : ∃ s, u = .zero s := by
  cases h with
  | zero s => exact ⟨s, rfl⟩
  | finite s m e hpos hcanonical =>
    have hmagnitude := congrArg (|·|) hzero
    rw [value_finite, abs_signed, abs_zero] at hmagnitude
    exact absurd (abs_eq_zero.1 hmagnitude) (by positivity)

/-- Two numbers of a format with the same value are the same, unless they are zeros. -/
lemma Regular.eq_of_value_eq (hu : Regular spec u) (hv : Regular spec v) (h : value u = value v)
    (hne : value u ≠ 0) : u = v := by
  cases hu with
  | zero s => exact absurd rfl hne
  | finite s m e hm hmc =>
    cases hv with
    | zero t => exact absurd h hne
    | finite t n f hn hnc =>
      have hmpos : (0 : ℚ) < m * 2 ^ e := by positivity
      have hnpos : (0 : ℚ) < n * 2 ^ f := by positivity
      have hmagnitude := congrArg (|·|) h
      rw [value_finite, value_finite, abs_signed, abs_signed, abs_of_pos hmpos,
        abs_of_pos hnpos] at hmagnitude
      obtain ⟨rfl, rfl⟩ := hmc.unique hnc hm hmagnitude
      have hsign : s = t := by
        cases s <;> cases t <;> simp only [value_finite, signed] at h <;> first | rfl | linarith
      rw [hsign]

/-! ## Approximation -/

variable (spec) in
/-- The nearest value of a format, if its exponents had no upper bound. Negative numbers are rounded
like positive ones. -/
def approx : ℚ → ℚ :=
  odd (rounded spec)

variable (spec) in
/-- Numbers that are not negative are rounded. -/
lemma approx_of_nonneg {x : ℚ} (hx : 0 ≤ x) : approx spec x = rounded spec x :=
  odd_of_nonneg hx

variable (spec) in
/-- Numbers are rounded without their signs. -/
lemma approx_signed (s : Sign) {x : ℚ} (hx : 0 ≤ x) :
    approx spec (signed s x) = signed s (rounded spec x) :=
  odd_signed (rounded_zero spec) s hx

variable (spec) in
/-- The approximation of the opposite is the opposite of the approximation. -/
lemma approx_neg (x : ℚ) : approx spec (-x) = -approx spec x :=
  odd_neg (rounded_zero spec) x

variable (spec) in
/-- Zero is its own approximation. -/
@[simp]
lemma approx_zero : approx spec 0 = 0 :=
  (approx_of_nonneg spec le_rfl).trans (rounded_zero spec)

variable (spec) in
/-- Approximation keeps the order. -/
theorem approx_mono : Monotone (approx spec) :=
  odd_mono (rounded_zero spec) (rounded_monotoneOn spec)

/-- The values of the format are not changed. -/
lemma Regular.approx_value (h : Regular spec u) : approx spec (value u) = value u := by
  cases h with
  | zero s => exact approx_zero spec
  | finite s m e hpos hcanonical =>
    rw [value_finite, approx_signed spec s (by positivity), hcanonical.rounded_eq]

/-- What is shown is a number of the format. -/
lemma Shows.regular {s : Sign} {x : ℚ} (h : Shows spec s x u) : Regular spec u := by
  cases h with
  | zero => exact .zero s
  | finite m e hpos hcanonical => exact .finite s m e hpos hcanonical

/-- The value that is shown is the nearest one. -/
lemma Shows.value_eq {s : Sign} {x : ℚ} (h : Shows spec s x u) (hx : 0 ≤ x) :
    value u = approx spec (signed s x) := by
  rw [approx_signed spec s hx]
  cases h with
  | zero hzero => rw [hzero, signed_zero, value_zero]
  | finite m e hpos _ hvalue => rw [value_finite, hvalue]

/-- A number that exceeds the greatest one by less than half a unit in its last place is not rounded
above it.

**Proof sketch.** The greatest number has a canonical form with a mantissa that is no power of two, and
all numbers in the upper half of its rounding interval are rounded to it. -/
lemma approx_le_greatest (hspec : 1 < spec.exponentBits) {x : ℚ}
    (hx : x < greatest spec + 2 ^ maxExponent spec / 2) : approx spec x ≤ greatest spec := by
  have hone := Nat.one_le_two_pow (n := spec.mantissaBits)
  have hvalue : greatest spec = ((2 ^ spec.mantissaBits - 1 : ℕ) : ℚ) * 2 ^ maxExponent spec := by
    rw [greatest]
    push_cast [hone]
    ring
  have hbits : 2 ^ spec.mantissaBits = 2 * 2 ^ spec.mantissaBitsWithoutImplicit := by
    rw [Format.mantissaBits, pow_add, pow_one]
  have hfull := Nat.one_le_two_pow (n := spec.mantissaBitsWithoutImplicit)
  have hcanonical : Canonical spec (2 ^ spec.mantissaBits - 1) (maxExponent spec) := by
    refine ⟨by omega, ?_, .inl (by omega)⟩
    have hbias := exponentBias_pos hspec
    rw [minExponent_eq, maxExponent]
    omega
  -- rounding keeps the order, so only a number from the greatest one on has to be looked at
  refine (approx_mono spec (le_max_left x (greatest spec))).trans ?_
  have hpow : (0 : ℚ) < 2 ^ maxExponent spec := by positivity
  have hdiff : |max x (greatest spec) - greatest spec| < 2 ^ maxExponent spec / 2 := by
    rw [abs_of_nonneg (sub_nonneg.2 (le_max_right _ _)), sub_lt_iff_lt_add', max_lt_iff]
    exact ⟨hx, by linarith⟩
  rw [approx_of_nonneg spec ((greatest_nonneg spec).trans (le_max_right _ _))]
  rw [hvalue] at hdiff ⊢
  rw [hcanonical.rounded_eq_of_near (by omega) (.inr (.inr (le_max_right _ _))) hdiff.le
    fun htie => absurd htie hdiff.ne]

/-- The same holds on either side of zero. -/
lemma abs_approx_le_greatest (hspec : 1 < spec.exponentBits) {x : ℚ}
    (hx : |x| < greatest spec + 2 ^ maxExponent spec / 2) : |approx spec x| ≤ greatest spec := by
  obtain ⟨hlow, hhigh⟩ := abs_lt.1 hx
  have hneg := approx_le_greatest hspec (x := -x) (by linarith)
  rw [approx_neg] at hneg
  exact abs_le.2 ⟨by linarith, approx_le_greatest hspec hhigh⟩

end Ribbon.Binary

namespace Ribbon.Binary32

open Ribbon.Binary (approx)

variable {x y : Float32}

/-! ## Single precision -/

/-- The value of a number. -/
def value (x : Float32) : ℚ :=
  Binary.value (decode x)

/-- A finite number is one of the format. -/
lemma regular_decode (h : x.isFinite = true) : Binary.Regular .binary32 (decode x) :=
  (fits_decode x).regular h

/-- A finite number is its own approximation. -/
lemma approx_value (h : x.isFinite = true) : approx .binary32 (value x) = value x :=
  (regular_decode h).approx_value

/-- Finite numbers are compared by their values. -/
theorem lt_iff (hx : x.isFinite = true) (hy : y.isFinite = true) : x < y ↔ value x < value y := by
  change decide ((decode x).lt (decode y) = true) = true ↔ _
  rw [decide_eq_true_iff, Float.Model.UnpackedFloat.lt, (regular_decode hx).compare_eq (regular_decode hy)]
  rw [← cmp_eq_lt_iff]
  cases h : cmp (Binary.value (decode x)) (Binary.value (decode y)) <;> simp [value, h]

/-- The other comparison goes by the values as well. -/
theorem le_iff (hx : x.isFinite = true) (hy : y.isFinite = true) : x ≤ y ↔ value x ≤ value y := by
  change decide ((decode x).le (decode y) = true) = true ↔ _
  rw [decide_eq_true_iff, Float.Model.UnpackedFloat.le, (regular_decode hx).compare_eq (regular_decode hy)]
  rw [← not_lt, ← cmp_eq_gt_iff]
  cases h : cmp (Binary.value (decode x)) (Binary.value (decode y)) <;> simp [value, h]

/-- Both zeros are equal in single precision. -/
theorem beq_iff (hx : x.isFinite = true) (hy : y.isFinite = true) :
    (x == y) = true ↔ value x = value y := by
  change (decode x).beq (decode y) = true ↔ _
  rw [Float.Model.UnpackedFloat.beq, (regular_decode hx).compare_eq (regular_decode hy),
    beq_iff_eq, Option.some_inj, cmp_eq_eq_iff, value, value]

/-- The number zero has the value zero. -/
@[simp]
lemma value_zero : value 0 = 0 := by
  rw [value, decode_zero]
  rfl

/-- Two finite numbers with the same value are the same, unless they are zeros. -/
theorem eq_of_value_eq (hx : x.isFinite = true) (hy : y.isFinite = true) (h : value x = value y)
    (hne : value x ≠ 0) : x = y := by
  have hdecoded := (regular_decode hx).eq_of_value_eq (regular_decode hy) h hne
  rw [← encode_decode x, hdecoded, encode_decode]

/-- There are two zeros. -/
theorem eq_zero_or_of_value_eq_zero (hx : x.isFinite = true) (h : value x = 0) :
    x = 0 ∨ x = -0 := by
  obtain ⟨s, hs⟩ := (regular_decode hx).exists_zero h
  rw [← encode_decode x, hs]
  cases s with
  | positive => exact .inl rfl
  | negative => exact .inr rfl

end Ribbon.Binary32
