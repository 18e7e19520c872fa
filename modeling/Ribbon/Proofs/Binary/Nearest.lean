import Mathlib

/-!
# Rounding to nearest

The arithmetic of binary formats, without its encoding: a positive number is rounded to the nearest
multiple of its quantum, a power of two that leaves as many digits as the format has. Half-way between
two multiples the even one is taken.

## Main definitions

* `Ribbon.Binary.nearest` — the nearest integer.
* `Ribbon.Binary.quantum` — the exponent of the last digit of a number in a format.
* `Ribbon.Binary.rounded` — the nearest number of a format, with exponents as large as needed.

## Main results

* `Ribbon.Binary.nearest_eq` — the nearest integer is determined by its distance.
* `Ribbon.Binary.nearest_mono` — the nearest integers are in the order of the numbers.
* `Ribbon.Binary.rounded_of_representable` — a number of the format is not changed.
* `Ribbon.Binary.abs_rounded_sub_le` — in the normal range the relative error is at most half a unit
  in the last place.
-/

set_option relaxedAutoImplicit false
set_option autoImplicit false

namespace Ribbon.Binary

open Float.Model (Format totalExponent)

/-- A power of two is twice the one before. -/
lemma two_zpow_eq_two_mul (e : ℤ) : (2 : ℚ) ^ e = 2 * 2 ^ (e - 1) := by
  rw [zpow_sub_one₀ (by norm_num)]
  ring

/-! ## The nearest integer -/

/-- The nearest integer, and half-way between two integers the even one. -/
def nearest (x : ℚ) : ℤ :=
  if x - ⌊x⌋ < 1 / 2 then ⌊x⌋
  else if 1 / 2 < x - ⌊x⌋ then ⌊x⌋ + 1
  else if ⌊x⌋ % 2 = 0 then ⌊x⌋ else ⌊x⌋ + 1

/-- No integer is nearer than `1 / 2`. -/
lemma abs_sub_nearest_le (x : ℚ) : |x - nearest x| ≤ 1 / 2 := by
  have hlow := Int.floor_le x
  have hhigh := Int.lt_floor_add_one x
  rw [nearest, abs_le]
  split
  · constructor <;> linarith
  · split
    · push_cast
      constructor <;> linarith
    · split
      · constructor <;> linarith
      · push_cast
        constructor <;> linarith

/-- The nearest integer is the one at a distance of less than `1 / 2`, or an even one at a distance of
`1 / 2`.

**Proof sketch.** The floor is the integer itself, if that is not above the number, and otherwise the one
before. A tie is the one case in which the number is half-way in the last branch. -/
theorem nearest_eq {x : ℚ} {n : ℤ} (h : |x - n| ≤ 1 / 2) (heven : |x - n| = 1 / 2 → n % 2 = 0) :
    nearest x = n := by
  rw [abs_le] at h
  rcases lt_or_ge x n with hlt | hge
  · -- from below: the floor is the integer before
    have hfloor : ⌊x⌋ = n - 1 := by
      rw [Int.floor_eq_iff]
      push_cast
      constructor <;> linarith
    rw [nearest, hfloor]
    push_cast
    rw [if_neg (by linarith)]
    split
    · ring
    · next hle =>
      have htie : |x - n| = 1 / 2 := by
        rw [abs_of_neg (by linarith)]
        linarith
      have hn := heven htie
      rw [if_neg (by omega)]
      ring
  · have hfloor : ⌊x⌋ = n := by
      rw [Int.floor_eq_iff]
      constructor <;> linarith
    rw [nearest, hfloor]
    split
    · rfl
    · next hle =>
      rw [if_neg (by linarith)]
      have htie : |x - n| = 1 / 2 := by
        rw [abs_of_nonneg (by linarith)]
        linarith
      rw [if_pos (heven htie)]

/-- An integer is its own nearest integer. -/
@[simp]
lemma nearest_intCast (n : ℤ) : nearest n = n := by
  apply nearest_eq <;> simp

/-- A larger number has no smaller nearest integer. -/
theorem nearest_mono {x y : ℚ} (h : x ≤ y) : nearest x ≤ nearest y := by
  by_contra hlt
  have hcast : (nearest y : ℚ) + 1 ≤ nearest x := by exact_mod_cast not_le.1 hlt
  have hx := abs_le.1 (abs_sub_nearest_le x)
  have hy := abs_le.1 (abs_sub_nearest_le y)
  -- only the tie of two neighbours is left, and a number has one nearest integer
  have heq : x = y := by linarith
  subst heq
  exact hlt le_rfl

/-! ## Quanta -/

variable (spec : Format) in
/-- The first power of two with too many digits for a mantissa at an exponent. -/
lemma two_pow_mantissaBits_mul (q : ℤ) :
    (2 : ℚ) ^ spec.mantissaBits * 2 ^ q = 2 ^ (q + spec.mantissaBits) := by
  rw [add_comm, zpow_add₀ (by norm_num), zpow_natCast]

variable (spec : Format) in
/-- The first power of two with all the digits of a mantissa at an exponent. -/
lemma two_pow_mantissaBitsWithoutImplicit_mul (q : ℤ) :
    (2 : ℚ) ^ spec.mantissaBitsWithoutImplicit * 2 ^ q = 2 ^ (q + spec.mantissaBits - 1) := by
  have hbits : q + spec.mantissaBits - 1 = spec.mantissaBitsWithoutImplicit + q := by
    simp only [Format.mantissaBits]
    push_cast
    ring
  rw [hbits, zpow_add₀ (by norm_num), zpow_natCast]

/-- The exponent of the leading digit of a number whose digits are known down to `2 ^ e`. -/
lemma log_eq_of_le_of_lt {m : ℕ} {e : ℤ} {x : ℚ} (hm : 0 < m) (hle : m * 2 ^ e ≤ x)
    (hlt : x < (m + 1) * 2 ^ e) : Int.log 2 x = m.log2 + e := by
  have hpow : (0 : ℚ) < 2 ^ e := by positivity
  have hx : 0 < x := lt_of_lt_of_le (by positivity) hle
  have hlow : (2 : ℚ) ^ ((m.log2 : ℤ) + e) ≤ x := by
    have hdigits : (2 : ℚ) ^ m.log2 ≤ m := by exact_mod_cast Nat.log2_self_le hm.ne'
    rw [zpow_add₀ (by norm_num), zpow_natCast]
    exact (mul_le_mul_of_nonneg_right hdigits hpow.le).trans hle
  have hhigh : x < (2 : ℚ) ^ ((m.log2 : ℤ) + e + 1) := by
    have hdigits : (m + 1 : ℚ) ≤ 2 ^ (m.log2 + 1) := by exact_mod_cast Nat.lt_log2_self
    rw [show (m.log2 : ℤ) + e + 1 = ((m.log2 + 1 : ℕ) : ℤ) + e by push_cast; ring,
      zpow_add₀ (by norm_num), zpow_natCast]
    exact hlt.trans_le (mul_le_mul_of_nonneg_right hdigits hpow.le)
  have hge := (Int.zpow_le_iff_le_log (b := 2) (by norm_num) hx).1 (by exact_mod_cast hlow)
  have hlt := (Int.lt_zpow_iff_log_lt (b := 2) (by norm_num) hx).1 (by exact_mod_cast hhigh)
  omega

section

variable {spec : Format} {x : ℚ}

variable (spec x) in
/-- The exponent of the last digit of a positive number: the leading digit is followed by the other
digits of the mantissa, but none is finer than the least exponent of the format. -/
def quantum : ℤ :=
  spec.targetExponent (Int.log 2 x + 1)

variable (spec x) in
/-- The nearest number of the format, if its exponents had no upper bound. -/
def rounded : ℚ :=
  nearest (x / 2 ^ quantum spec x) * 2 ^ quantum spec x

variable (spec x) in
/-- The quantum is at least the least exponent of the format. -/
lemma minExponent_le_quantum : spec.minExponent ≤ quantum spec x :=
  le_max_right _ _

/-- A positive number has at most the digits of the mantissa above its quantum. -/
lemma lt_mul_two_zpow_of_quantum_le {q : ℤ} (hx : 0 < x) (h : quantum spec x ≤ q) :
    x < 2 ^ spec.mantissaBits * 2 ^ q := by
  have hlog : Int.log 2 x < q + spec.mantissaBits := by
    simp only [quantum, Format.targetExponent] at h
    omega
  rw [two_pow_mantissaBits_mul]
  exact_mod_cast (Int.lt_zpow_iff_log_lt (by norm_num) hx).2 hlog

/-- A number with no more digits than the mantissa above an exponent of the format has its quantum
there, or further down. -/
lemma quantum_le {q : ℤ} (hx : 0 < x) (hq : spec.minExponent ≤ q)
    (h : x < 2 ^ spec.mantissaBits * 2 ^ q) : quantum spec x ≤ q := by
  rw [two_pow_mantissaBits_mul] at h
  have hlog : Int.log 2 x < q + spec.mantissaBits :=
    (Int.lt_zpow_iff_log_lt (by norm_num) hx).1 (by exact_mod_cast h)
  simp only [quantum, Format.targetExponent]
  omega

/-- A number with all the digits of the mantissa above an exponent has its quantum there, or further
up. -/
lemma le_quantum {q : ℤ} (hx : 0 < x) (h : 2 ^ spec.mantissaBitsWithoutImplicit * 2 ^ q ≤ x) :
    q ≤ quantum spec x := by
  rw [two_pow_mantissaBitsWithoutImplicit_mul] at h
  have hlog : q + spec.mantissaBits - 1 ≤ Int.log 2 x :=
    (Int.zpow_le_iff_le_log (by norm_num) hx).1 (by exact_mod_cast h)
  simp only [quantum, Format.targetExponent]
  omega

/-- Above the least exponent a number has all the digits of the mantissa. -/
lemma mul_two_zpow_le_of_lt_quantum (hx : 0 < x) (h : spec.minExponent < quantum spec x) :
    2 ^ spec.mantissaBitsWithoutImplicit * 2 ^ quantum spec x ≤ x := by
  have hlog : quantum spec x + spec.mantissaBits - 1 ≤ Int.log 2 x := by
    simp only [quantum, Format.targetExponent] at h ⊢
    omega
  rw [two_pow_mantissaBitsWithoutImplicit_mul]
  exact_mod_cast (Int.zpow_le_iff_le_log (by norm_num) hx).2 hlog

/-- A larger number has no finer quantum. -/
lemma quantum_mono {y : ℚ} (hx : 0 < x) (h : x ≤ y) : quantum spec x ≤ quantum spec y := by
  have hlog := Int.log_mono_right (b := 2) hx h
  simp only [quantum, Format.targetExponent]
  omega

variable (spec) in
/-- Zero is a value of every format. -/
@[simp]
lemma rounded_zero : rounded spec 0 = 0 := by
  have hzero : nearest 0 = 0 := by exact_mod_cast nearest_intCast 0
  rw [rounded, zero_div, hzero, Int.cast_zero, zero_mul]

variable (spec) in
/-- The mantissas of an exponent lie below the full mantissas of any larger exponent. -/
lemma two_pow_mantissaBits_mul_le {e f : ℤ} (h : e < f) :
    (2 : ℚ) ^ spec.mantissaBits * 2 ^ e ≤ 2 ^ spec.mantissaBitsWithoutImplicit * 2 ^ f := by
  have hpow : (2 : ℚ) ^ (e + 1) ≤ 2 ^ f := zpow_le_zpow_right₀ (by norm_num) h
  calc (2 : ℚ) ^ spec.mantissaBits * 2 ^ e
      = 2 ^ spec.mantissaBitsWithoutImplicit * 2 ^ (e + 1) := by
        rw [zpow_add_one₀ (by norm_num), Format.mantissaBits, pow_add]
        ring
    _ ≤ 2 ^ spec.mantissaBitsWithoutImplicit * 2 ^ f :=
        mul_le_mul_of_nonneg_left hpow (by positivity)

/-- A number of the format is not changed.

**Proof sketch.** Its quantum is no higher than its own exponent, so it is a multiple of it. -/
theorem rounded_of_representable {m : ℕ} {e : ℤ} (hm : m < 2 ^ spec.mantissaBits)
    (he : spec.minExponent ≤ e) : rounded spec (m * 2 ^ e) = m * 2 ^ e := by
  rcases Nat.eq_zero_or_pos m with rfl | hpos
  · simp
  · have hx : (0 : ℚ) < m * 2 ^ e := by positivity
    have hdigits : (m : ℚ) * 2 ^ e < 2 ^ spec.mantissaBits * 2 ^ e :=
      mul_lt_mul_of_pos_right (by exact_mod_cast hm) (by positivity)
    have hle : quantum spec ((m : ℚ) * 2 ^ e) ≤ e := quantum_le hx he hdigits
    obtain ⟨k, hk⟩ := Int.eq_ofNat_of_zero_le (Int.sub_nonneg.2 hle)
    have hwhole : (m : ℚ) * 2 ^ e / 2 ^ quantum spec ((m : ℚ) * 2 ^ e) = ((m * 2 ^ k : ℕ) : ℤ) := by
      rw [mul_div_assoc, ← zpow_sub₀ (by norm_num), hk, zpow_natCast]
      push_cast
      ring
    have hpow : (2 : ℚ) ^ quantum spec ((m : ℚ) * 2 ^ e) ≠ 0 := by positivity
    rw [rounded, hwhole, nearest_intCast, ← hwhole, div_mul_cancel₀ _ hpow]

variable (spec) in
/-- A power of two is not changed by rounding. -/
lemma rounded_two_zpow {q : ℤ} (hq : spec.minExponent ≤ q) : rounded spec (2 ^ q) = 2 ^ q := by
  have hone : 1 < 2 ^ spec.mantissaBits := Nat.one_lt_two_pow (by simp [Format.mantissaBits])
  simpa using rounded_of_representable hone hq

/-- A multiple of the quantum that is near enough is the rounded number. -/
lemma rounded_eq_of_quantum {e n : ℤ} (hquantum : quantum spec x = e)
    (hclose : |x - n * 2 ^ e| ≤ 2 ^ e / 2) (heven : |x - n * 2 ^ e| = 2 ^ e / 2 → n % 2 = 0) :
    rounded spec x = n * 2 ^ e := by
  have hpow : (0 : ℚ) < 2 ^ e := by positivity
  have hscaled : |x / 2 ^ e - n| = |x - n * 2 ^ e| / 2 ^ e := by
    rw [← abs_of_pos hpow, ← abs_div, abs_of_pos hpow, sub_div, mul_div_cancel_right₀ _ hpow.ne']
  have hnearest : nearest (x / 2 ^ e) = n := by
    refine nearest_eq ?_ fun htie => heven ?_
    · rw [hscaled, div_le_iff₀ hpow]
      linarith
    · rw [hscaled, div_eq_iff hpow.ne'] at htie
      linarith
  rw [rounded, hquantum, hnearest]

/-- The error is at most half a quantum. -/
lemma abs_rounded_sub_le_quantum :
    |rounded spec x - x| ≤ 2 ^ quantum spec x / 2 := by
  have hpow : (0 : ℚ) < 2 ^ quantum spec x := by positivity
  have hclose := abs_sub_nearest_le (x / 2 ^ quantum spec x)
  have hsplit : rounded spec x - x =
      -((x / 2 ^ quantum spec x - nearest (x / 2 ^ quantum spec x)) * 2 ^ quantum spec x) := by
    rw [rounded, sub_mul, div_mul_cancel₀ _ hpow.ne']
    ring
  rw [hsplit, abs_neg, abs_mul, abs_of_pos hpow]
  calc |x / 2 ^ quantum spec x - nearest (x / 2 ^ quantum spec x)| * 2 ^ quantum spec x
      ≤ 1 / 2 * 2 ^ quantum spec x := mul_le_mul_of_nonneg_right hclose hpow.le
    _ = 2 ^ quantum spec x / 2 := by ring

/-- In the normal range the error is at most half a unit in the last place. -/
theorem abs_rounded_sub_le (hx : 2 ^ (spec.minExponent + spec.mantissaBits - 1) ≤ x) :
    |rounded spec x - x| ≤ x / 2 ^ spec.mantissaBits := by
  have hpos : 0 < x := lt_of_lt_of_le (by positivity) hx
  have hfull : 2 ^ (quantum spec x + spec.mantissaBits - 1) ≤ x := by
    rcases eq_or_lt_of_le (minExponent_le_quantum spec x) with h | h
    · rw [← h]
      exact hx
    · rw [← two_pow_mantissaBitsWithoutImplicit_mul]
      exact mul_two_zpow_le_of_lt_quantum hpos h
  refine abs_rounded_sub_le_quantum.trans ?_
  rw [le_div_iff₀ (by positivity), div_mul_eq_mul_div, ← zpow_natCast, ← zpow_add₀ (by norm_num),
    div_eq_mul_inv, ← zpow_neg_one, ← zpow_add₀ (by norm_num)]
  exact hfull

end

end Ribbon.Binary
