import Ribbon.Json.Number
import Ribbon.Proofs.Binary.Rounding

/-!
# Numbers read as doubles

The double of a written number is a product or a quotient of two doubles, each of which may be
rounded, and so is the result. Away from the ends of the range the three errors together are at most
two parts in `2 ^ 53` and a trifle. If both operands and the result are doubles there is no error.

## Main definitions

* `Ribbon.Json.Holds` — a double that is a given positive number, with all the digits of a mantissa.
* `Ribbon.Json.InRange` — numbers well within the range of doubles.
* `Ribbon.Json.Moderate` — a count and a power of ten of moderate size.

## Main results

* `Ribbon.Json.Holds.mul`, `Ribbon.Json.Holds.div` — products and quotients.
* `Ribbon.Json.Moderate.exists_holds` — a count times a power of ten.
* `Ribbon.Json.Moderate.holds_exact` — the same without error.
-/

set_option relaxedAutoImplicit false
set_option autoImplicit false

namespace Ribbon.Json

open Float.Model (Format UnpackedFloat)
open Float.Model.UnpackedFloat
open Ribbon.Binary

/-- A double is the positive number `v`, with all the digits of a mantissa. -/
def Holds (x : Float) (v : ℚ) : Prop :=
  ∃ (m : ℕ) (e : ℤ) (hpos : 0 < m), x.toModel.unpack = .finite .positive m e hpos ∧ 2 ^ 52 ≤ m ∧
    (m : ℚ) * 2 ^ e = v

/-- A number is well within the range of doubles. -/
structure InRange (v : ℚ) : Prop where
  low : 2 ^ (-200 : ℤ) ≤ v
  high : v ≤ 2 ^ (200 : ℤ)

variable {v w : ℚ}

/-- A number within the range is positive. -/
lemma InRange.pos (h : InRange v) : 0 < v := lt_of_lt_of_le (by positivity) h.low

/-- The error of rounding within the range. -/
lemma InRange.abs_rounded_sub_le (h : InRange v) : |rounded .binary64 v - v| ≤ v / 2 ^ 53 := by
  refine Binary.abs_rounded_sub_le (le_trans ?_ h.low)
  exact zpow_le_zpow_right₀ (by norm_num) (by decide)

/-- A number within the range is rounded to a double.

**Proof sketch.** It is too small for an infinity, and its rounded value is too large for the least
exponent, so the mantissa has all its digits. -/
lemma InRange.holds (h : InRange v) {u : UnpackedFloat} (hu : Shows .binary64 .positive v u) :
    Holds (.ofModel (.pack u)) (rounded .binary64 v) := by
  have herror := (abs_le.1 h.abs_rounded_sub_le).1
  have hpos := h.pos
  have hlow := h.low
  have hfits : Fits .binary64 u := by
    refine hu.fits (by decide) hpos (lt_of_le_of_lt h.high ?_)
    exact zpow_lt_zpow_right₀ (by norm_num) (by decide)
  have hdecoded := unpack_pack hfits
  have hlarge : (2 : ℚ) ^ (-201 : ℤ) ≤ rounded .binary64 v := by
    have hhalf : (2 : ℚ) ^ (-200 : ℤ) = 2 * 2 ^ (-201 : ℤ) := by
      norm_num1
    linarith
  cases hu with
  | zero hzero =>
    rw [hzero] at hlarge
    exact absurd hlarge (not_le.2 (by positivity))
  | finite m e hm hcanonical hvalue =>
    refine ⟨m, e, hm, hdecoded, ?_, hvalue⟩
    refine hcanonical.full.resolve_right ?_
    rintro rfl
    have hlt : (m : ℚ) < 2 ^ 53 := by exact_mod_cast hcanonical.lt
    have hmin : Format.binary64.minExponent = -1074 := by rfl
    rw [← hvalue, hmin] at hlarge
    have hsmall : (m : ℚ) * 2 ^ (-1074 : ℤ) < 2 ^ 53 * 2 ^ (-1074 : ℤ) :=
      mul_lt_mul_of_pos_right hlt (by positivity)
    have hvery : (2 : ℚ) ^ 53 * 2 ^ (-1074 : ℤ) < 2 ^ (-201 : ℤ) := by
      rw [← zpow_natCast, ← zpow_add₀ (by norm_num)]
      exact zpow_lt_zpow_right₀ (by norm_num) (by decide)
    linarith

/-! ## Products and quotients -/

section

variable {x y : Float} (hx : Holds x v) (hy : Holds y w)

include hx hy

/-- The product of two doubles. -/
theorem Holds.mul (h : InRange (v * w)) : Holds (x * y) (rounded .binary64 (v * w)) := by
  obtain ⟨m, e, hm, hdx, hfull, rfl⟩ := hx
  obtain ⟨n, f, hn, hdy, -, rfl⟩ := hy
  have hshows := shows_mul .binary64 (s := .positive) (t := .positive) (e := e) (f := f) hm hn
    (hfull.trans (Nat.le_mul_of_pos_right _ hn))
  rw [← hdx, ← hdy] at hshows
  exact h.holds hshows

/-- The quotient of two doubles. -/
theorem Holds.div (h : InRange (v / w)) : Holds (x / y) (rounded .binary64 (v / w)) := by
  obtain ⟨m, e, hm, hdx, hfull, rfl⟩ := hx
  obtain ⟨n, f, hn, hdy, -, rfl⟩ := hy
  have hshows := shows_div .binary64 (s := .positive) (t := .positive) (e := e) (f := f) hm hn
  rw [← hdx, ← hdy] at hshows
  exact h.holds hshows

end

/-! ## Counts and powers of ten -/

/-- A count that fits into a mantissa is a double. -/
lemma holds_count {n : ℕ} (hn : 0 < n) (hlt : n < 2 ^ 53) : Holds n.toUInt64.toFloat n := by
  have hone : (1 : ℚ) ≤ n := by exact_mod_cast hn
  have htop : (n : ℚ) < 2 ^ 53 := by exact_mod_cast hlt
  have hrange : InRange n := by
    constructor
    · exact le_trans (by norm_num1) hone
    · exact htop.le.trans (by norm_num1)
  have hexact : rounded .binary64 n = n := by
    have h : rounded .binary64 (n * 2 ^ (0 : ℤ)) = n * 2 ^ (0 : ℤ) :=
      rounded_of_representable hlt (by decide)
    rwa [zpow_zero, mul_one] at h
  have hnat : n.toUInt64.toNat = n := Nat.mod_eq_of_lt (by omega)
  have hholds := hrange.holds (shows_ofNat .binary64 hn)
  rw [hexact] at hholds
  nth_rewrite 1 [← hnat] at hholds
  exact hholds

/-- A power of ten within the range is rounded to a double. -/
lemma holds_tenPower {k : ℕ} (hk : k ≤ 60) :
    Holds (Numeral.tenPower k) (rounded .binary64 (10 ^ k)) := by
  have hrange : InRange (10 ^ k) := by
    constructor
    · exact le_trans (by norm_num1) (one_le_pow₀ (show (1 : ℚ) ≤ 10 by norm_num))
    · exact (pow_le_pow_right₀ (show (1 : ℚ) ≤ 10 by norm_num) hk).trans (by norm_num1)
  refine hrange.holds ?_
  have hfull : 2 ^ 52 ≤ 1 <<< 53 * 10 ^ k :=
    (show 2 ^ 52 ≤ 1 <<< 53 by decide).trans (Nat.le_mul_of_pos_right _ (by positivity))
  have hshows := shows_mul .binary64 (s := .positive) (t := .positive) (e := -53) (f := 0)
    (show 0 < 1 <<< 53 by decide) (show 0 < 10 ^ k by positivity) hfull
  have hvalue : ((1 <<< 53 : ℕ) * 2 ^ (-53 : ℤ) : ℚ) * ((10 ^ k : ℕ) * 2 ^ (0 : ℤ)) = 10 ^ k := by
    have hone : ((1 <<< 53 : ℕ) : ℚ) * 2 ^ (-53 : ℤ) = 1 := by
      rw [Nat.one_shiftLeft]
      norm_num1
    rw [hone, one_mul, zpow_zero, mul_one, Nat.cast_pow, Nat.cast_ofNat]
  rw [hvalue] at hshows
  rw [UnpackedFloat.ofScientific, dif_neg (by decide), if_neg (by simp; omega), if_neg (by simp; omega),
    if_pos (by omega)]
  exact hshows

/-! ## The double of a written number -/

/-- A decimal that is written as a count and a power of ten of moderate size. -/
structure Moderate (n : ℕ) (k : ℤ) : Prop where
  pos : 0 < n
  lt : n < 2 ^ 53
  low : -50 ≤ k
  high : k ≤ 40

namespace Moderate

variable {n : ℕ} {k : ℤ} (h : Moderate n k)

include h

/-- A moderate decimal is positive. -/
lemma value_pos : (0 : ℚ) < n * 10 ^ k := by
  have hpos : (0 : ℚ) < n := by exact_mod_cast h.pos
  positivity

/-- A moderate decimal and what is close to it are within the range. -/
lemma inRange {x : ℚ} (hx : |x - n * 10 ^ k| ≤ n * 10 ^ k / 2) : InRange x := by
  obtain ⟨hleft, hright⟩ := abs_le.1 hx
  have hone : (1 : ℚ) ≤ n := by exact_mod_cast h.pos
  have htop : (n : ℚ) ≤ 2 ^ 53 := by exact_mod_cast h.lt.le
  have hlow : (10 : ℚ) ^ (-50 : ℤ) ≤ n * 10 ^ k := by
    calc (10 : ℚ) ^ (-50 : ℤ) ≤ 10 ^ k := zpow_le_zpow_right₀ (by norm_num) h.low
      _ ≤ n * 10 ^ k := le_mul_of_one_le_left (by positivity) hone
  have hhigh : (n : ℚ) * 10 ^ k ≤ 2 ^ 53 * 10 ^ (40 : ℤ) :=
    mul_le_mul htop (zpow_le_zpow_right₀ (by norm_num) h.high) (by positivity) (by positivity)
  constructor
  · calc (2 : ℚ) ^ (-200 : ℤ) ≤ 10 ^ (-50 : ℤ) / 2 := by norm_num1
      _ ≤ n * 10 ^ k / 2 := div_le_div_of_nonneg_right hlow (by norm_num)
      _ ≤ x := by linarith
  · calc x ≤ n * 10 ^ k * (3 / 2) := by linarith
      _ ≤ 2 ^ 53 * 10 ^ (40 : ℤ) * (3 / 2) := mul_le_mul_of_nonneg_right hhigh (by norm_num)
      _ ≤ 2 ^ (200 : ℤ) := by norm_num1

/-- A moderate decimal that is not smaller than its digits is a product. -/
lemma scaled_of_nonneg (hk : 0 ≤ k) :
    Numeral.scaled n k = n.toUInt64.toFloat * Numeral.tenPower k.natAbs := by
  rw [Numeral.scaled, if_neg h.pos.ne', if_pos hk]
  congr 2
  omega

/-- A moderate decimal that is smaller than its digits is a quotient. -/
lemma scaled_of_neg (hk : k < 0) :
    Numeral.scaled n k = n.toUInt64.toFloat / Numeral.tenPower k.natAbs := by
  have hlow := h.low
  have hrounds : (k.natAbs - 1) / 308 = 0 := by omega
  have hnat : (-k).toNat = k.natAbs := by omega
  rw [Numeral.scaled, if_neg h.pos.ne', if_neg (by omega)]
  simp only [Numeral.shrink, hrounds, hnat]
  rfl

/-- The power of ten of a moderate decimal, as a double. -/
lemma abs_tenPower_sub_le :
    |rounded .binary64 (10 ^ k.natAbs) - 10 ^ k.natAbs| ≤ (10 : ℚ) ^ k.natAbs / 2 ^ 53 := by
  have hlow := h.low
  have hhigh := h.high
  refine InRange.abs_rounded_sub_le ⟨?_, ?_⟩
  · exact le_trans (by norm_num1) (one_le_pow₀ (show (1 : ℚ) ≤ 10 by norm_num))
  · exact (pow_le_pow_right₀ (show (1 : ℚ) ≤ 10 by norm_num) (show k.natAbs ≤ 60 by omega)).trans
      (by norm_num1)

omit h in
/-- A decimal that is not smaller than its digits, with a natural power of ten. -/
lemma value_of_nonneg (hk : 0 ≤ k) : (n : ℚ) * 10 ^ k = n * 10 ^ k.natAbs := by
  rw [← zpow_natCast, Int.natAbs_of_nonneg hk]

omit h in
/-- A decimal that is smaller than its digits, with a natural power of ten. -/
lemma value_of_neg (hk : k < 0) : (n : ℚ) * 10 ^ k = n / 10 ^ k.natAbs := by
  rw [← zpow_natCast, div_eq_mul_inv, ← zpow_neg]
  congr 2
  omega

section

variable {p : ℚ} (hp : |p - 10 ^ k.natAbs| ≤ 10 ^ k.natAbs / 2 ^ 53)

include hp

/-- The product with the double of a power of ten has the relative error of that. -/
lemma abs_mul_sub_le (hk : 0 ≤ k) : |n * p - n * 10 ^ k| ≤ n * 10 ^ k * (1 / 2 ^ 53 + 1 / 2 ^ 105) := by
  have hn : (0 : ℚ) < n := by exact_mod_cast h.pos
  have herror : |n * p - n * 10 ^ k| ≤ n * 10 ^ k / 2 ^ 53 := by
    rw [value_of_nonneg hk, ← mul_sub, abs_mul, abs_of_pos hn, mul_div_assoc]
    exact mul_le_mul_of_nonneg_left hp hn.le
  have hvalue := h.value_pos
  linarith

/-- The quotient has a little more, since its error is relative to itself. -/
lemma abs_div_sub_le (hk : k < 0) : |n / p - n * 10 ^ k| ≤ n * 10 ^ k * (1 / 2 ^ 53 + 1 / 2 ^ 105) := by
  have hn : (0 : ℚ) < n := by exact_mod_cast h.pos
  have hten : (0 : ℚ) < 10 ^ k.natAbs := by positivity
  have hpos : 0 < p := by
    have := (abs_le.1 hp).1
    linarith
  have hquotient : 0 < n / p := div_pos hn hpos
  have hdiff : n / p - n * 10 ^ k = n / p * (-(p - 10 ^ k.natAbs) / 10 ^ k.natAbs) := by
    rw [value_of_neg hk]
    field_simp
    ring
  have hrelative : |p - 10 ^ k.natAbs| / 10 ^ k.natAbs ≤ 1 / 2 ^ 53 := by
    rw [div_le_iff₀ hten]
    linarith
  have herror : |n / p - n * 10 ^ k| ≤ n / p * (1 / 2 ^ 53) := by
    rw [hdiff, abs_mul, abs_of_pos hquotient, abs_div, abs_neg, abs_of_pos hten]
    exact mul_le_mul_of_nonneg_left hrelative hquotient.le
  have habove := (abs_le.1 herror).2
  have hvalue := h.value_pos
  linarith

end

/-- What is so close to a moderate decimal is within the range, and still close when it is rounded. -/
lemma inRange_and_close {v : ℚ} (hv : |v - n * 10 ^ k| ≤ n * 10 ^ k * (1 / 2 ^ 53 + 1 / 2 ^ 105)) :
    InRange v ∧
      |rounded .binary64 v - n * 10 ^ k| ≤ n * 10 ^ k * (1 / 2 ^ 52 + 1 / 2 ^ 100) := by
  have hvalue := h.value_pos
  have hrange : InRange v := h.inRange (hv.trans (by linarith))
  refine ⟨hrange, ?_⟩
  have hrounded := hrange.abs_rounded_sub_le
  have habove := (abs_le.1 hv).2
  have htriangle := abs_sub_le (rounded .binary64 v) v (n * 10 ^ k)
  linarith

/-- **The double of a moderate decimal** is close to it.

**Proof sketch.** The digits are a double, and the double of the power of ten has a relative error of at
most `1 / 2 ^ 53`. So has the product or the quotient of the two (`abs_mul_sub_le`, `abs_div_sub_le`),
and when that is rounded to a double, the same error is made once more (`inRange_and_close`). -/
theorem exists_holds :
    ∃ v, Holds (Numeral.scaled n k) v ∧ |v - n * 10 ^ k| ≤ n * 10 ^ k * (1 / 2 ^ 52 + 1 / 2 ^ 100) := by
  have hlow := h.low
  have hhigh := h.high
  have hcount := holds_count h.pos h.lt
  have hpower := holds_tenPower (show k.natAbs ≤ 60 by omega)
  rcases le_or_gt 0 k with hk | hk
  · obtain ⟨hrange, hclose⟩ := h.inRange_and_close (h.abs_mul_sub_le h.abs_tenPower_sub_le hk)
    exact ⟨_, h.scaled_of_nonneg hk ▸ hcount.mul hpower hrange, hclose⟩
  · obtain ⟨hrange, hclose⟩ := h.inRange_and_close (h.abs_div_sub_le h.abs_tenPower_sub_le hk)
    exact ⟨_, h.scaled_of_neg hk ▸ hcount.div hpower hrange, hclose⟩

omit h in
/-- The double of a small power of ten has no error. -/
lemma rounded_tenPower (hlow : -22 ≤ k) (hhigh : k ≤ 22) :
    rounded .binary64 (10 ^ k.natAbs) = 10 ^ k.natAbs := by
  have hten : (10 : ℚ) ^ k.natAbs = (5 ^ k.natAbs : ℕ) * 2 ^ (k.natAbs : ℤ) := by
    rw [Nat.cast_pow, zpow_natCast, ← mul_pow]
    norm_num
  have hfive : 5 ^ k.natAbs < 2 ^ 53 :=
    (Nat.pow_le_pow_right (by decide) (show k.natAbs ≤ 22 by omega)).trans_lt (by decide)
  have hmin : Format.binary64.minExponent ≤ 0 := by decide
  rw [hten]
  exact rounded_of_representable hfive (hmin.trans (Int.natCast_nonneg _))

/-- If power and result are doubles, there is no error. -/
theorem holds_exact (hlow : -22 ≤ k) (hhigh : k ≤ 22) {m : ℕ} {e : ℤ} (hm : m < 2 ^ 53)
    (he : -1000 ≤ e) (hvalue : (n : ℚ) * 10 ^ k = m * 2 ^ e) :
    Holds (Numeral.scaled n k) (n * 10 ^ k) := by
  have hcount := holds_count h.pos h.lt
  have hpower := holds_tenPower (show k.natAbs ≤ 60 by omega)
  rw [rounded_tenPower hlow hhigh] at hpower
  have hresult : rounded .binary64 (n * 10 ^ k) = n * 10 ^ k := by
    rw [hvalue]
    exact rounded_of_representable hm (le_trans (by decide) he)
  have hrange : InRange (n * 10 ^ k) := h.inRange (by
    rw [sub_self, abs_zero]
    exact (half_pos h.value_pos).le)
  rcases le_or_gt 0 k with hk | hk
  · rw [value_of_nonneg hk] at hrange hresult ⊢
    rw [h.scaled_of_nonneg hk, ← hresult]
    exact hcount.mul hpower hrange
  · rw [value_of_neg hk] at hrange hresult ⊢
    rw [h.scaled_of_neg hk, ← hresult]
    exact hcount.div hpower hrange

end Moderate

end Ribbon.Json
