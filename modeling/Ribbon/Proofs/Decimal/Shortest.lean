import Ribbon.Decimal
import Ribbon.Proofs.Binary.Packing

/-!
# The shortest decimal

The search for the shortest decimal ends with a point of the rounding interval, and on its grid there
is none nearer to the number. On the grid before there is no point in the interval, so the grid is not
much finer than needed.

## Main definitions

* `Ribbon.Decimal.value` — the number a decimal stands for.
* `Ribbon.Decimal.Hits` — a grid point that the search ends with.
* `Ribbon.Decimal.Nearby` — what is known of the shortest decimal.

## Main results

* `Ribbon.Decimal.Scaled.nearest?_spec`, `Ribbon.Decimal.Scaled.isSome_nearest?` — one grid.
* `Ribbon.Decimal.Interval.search_spec` — the search.
* `Ribbon.Decimal.nearby_shortest` — the shortest decimal of a single-precision number.
-/

set_option relaxedAutoImplicit false
set_option autoImplicit false

namespace Ribbon.Decimal

open Float.Model (Format)
open Ribbon.Binary (Canonical)

/-- The number a decimal stands for. -/
def value (d : Decimal) : ℚ := d.coefficient * 10 ^ d.exponent

/-! ## One grid -/

namespace Scaled

variable {s : Scaled} {w : ℕ} {tie : Tie}

/-- A point lies in the interval, or on an end that belongs to it. -/
lemma contains_iff {n : ℕ} :
    s.contains n = true ↔
      (s.low < n * s.unit ∧ n * s.unit < s.high) ∨
        s.closed = true ∧ s.low ≤ n * s.unit ∧ n * s.unit ≤ s.high := by
  rw [contains]
  cases s.closed <;> simp; omega

variable (hunit : 0 < s.unit) (hlow : s.low + w = s.middle) (hhigh : s.middle + w = s.high)

include hunit

/-- The point after the last one below the middle is above it. -/
lemma lt_below_succ_mul : s.middle < (s.below + 1) * s.unit := by
  rw [mul_comm]
  exact Nat.lt_mul_div_succ _ hunit

include hlow hhigh

/-- A point that is found lies in the interval, and is no further from the middle than half the
distance of two points.

**Proof sketch.** Only the two points around the middle are tried, and they are less than a step apart
from it. If both are in the interval, the nearer one is taken. If one is not, it is further off than
the other, since the interval is symmetric. -/
theorem nearest?_spec {n : ℕ} (h : s.nearest? tie = some n) :
    s.contains n = true ∧ 2 * (n * s.unit) ≤ 2 * s.middle + s.unit ∧
      2 * s.middle ≤ 2 * (n * s.unit) + s.unit := by
  have hbelow : s.below * s.unit ≤ s.middle := Nat.div_mul_le_self _ _
  have habove := lt_below_succ_mul hunit
  have hnext := add_one_mul s.below s.unit
  rw [nearest?] at h
  cases hdown : s.contains s.below <;> cases hup : s.contains (s.below + 1) <;>
    rw [hdown, hup] at h <;> cases h
  · -- only the point above: the one below is outside, so it is no nearer
    refine ⟨hup, ?_⟩
    rw [← Bool.not_eq_true, contains_iff] at hdown
    rw [contains_iff] at hup
    constructor <;> omega
  · refine ⟨hdown, ?_⟩
    rw [← Bool.not_eq_true, contains_iff] at hup
    rw [contains_iff] at hdown
    constructor <;> omega
  · have hchoice : (s.nearer tie = s.below ∧ s.middle - s.below * s.unit ≤
          (s.below + 1) * s.unit - s.middle) ∨
        (s.nearer tie = s.below + 1 ∧ (s.below + 1) * s.unit - s.middle ≤
          s.middle - s.below * s.unit) := by
      simp only [nearer]
      grind
    rcases hchoice with ⟨heq, hle⟩ | ⟨heq, hle⟩
    · rw [heq]
      exact ⟨hdown, by omega, by omega⟩
    · rw [heq]
      exact ⟨hup, by omega, by omega⟩

/-- If two points are nearer to each other than the ends of the interval, one of them lies in it. -/
theorem isSome_nearest? (hw : s.unit < 2 * w) : (s.nearest? tie).isSome := by
  have hbelow : s.below * s.unit ≤ s.middle := Nat.div_mul_le_self _ _
  have habove := lt_below_succ_mul hunit
  have hnext := add_one_mul s.below s.unit
  have hone : s.contains s.below = true ∨ s.contains (s.below + 1) = true := by
    rw [contains_iff, contains_iff]
    omega
  rw [nearest?]
  rcases hone with h | h <;> rw [h] <;> split <;> simp_all

end Scaled

/-! ## The search -/

/-- A point of its grid that is in the interval and nearest to the middle. -/
def Hits (i : Interval) (tie : Tie) (d : Decimal) : Prop :=
  (i.scaled d.exponent).nearest? tie = some d.coefficient

/-- **The search ends with the first hit.** If one of the grids it tries has a hit, the search ends
with a hit, and no grid before that one has any. -/
theorem Interval.search_spec (i : Interval) (tie : Tie) {fuel j : ℕ} {k : ℤ} (hj : j < fuel)
    (h : ((i.scaled (k - j)).nearest? tie).isSome) :
    let d := i.search tie fuel k
    Hits i tie d ∧ d.exponent ≤ k ∧
      ∀ l, d.exponent < l → l ≤ k → (i.scaled l).nearest? tie = none := by
  induction fuel generalizing j k with
  | zero => omega
  | succ fuel ih =>
    rw [search]
    split
    · next n hn => exact ⟨hn, le_rfl, fun l hl hk => by dsimp only at hl; omega⟩
    · next hnone =>
      obtain _ | j := j
      · rw [Nat.cast_zero, sub_zero, hnone] at h
        cases h
      · rw [show k - ((j + 1 : ℕ) : ℤ) = k - 1 - j by push_cast; ring] at h
        obtain ⟨hhit, hle, hbefore⟩ := ih (by omega) h
        refine ⟨hhit, by omega, fun l hl hk => ?_⟩
        rcases eq_or_lt_of_le hk with rfl | hlt
        · exact hnone
        · exact hbefore l hl (by omega)

/-! ## The rounding interval -/

/-- A power with a whole exponent, as a quotient of two powers with natural ones. -/
lemma pow_toNat {b : ℚ} (hb : b ≠ 0) (z : ℤ) : b ^ z.toNat = b ^ (-z).toNat * b ^ z := by
  rw [← zpow_natCast, ← zpow_natCast, ← zpow_add₀ hb]
  congr 1
  omega

namespace Interval

variable (i : Interval) (k : ℤ)

/-- The interval and the grid are measured in the same unit. -/
lemma exists_scaled :
    ∃ f : ℕ, 0 < f ∧ i.scaled k = ⟨i.low * f, i.middle * f, i.high * f, (i.scaled k).unit, i.closed⟩ ∧
      0 < (i.scaled k).unit ∧ ((i.scaled k).unit : ℚ) * 2 ^ i.exponent = f * 10 ^ k := by
  refine ⟨10 ^ (-k).toNat * 2 ^ i.exponent.toNat, by positivity, rfl,
    Nat.mul_pos (Nat.pow_pos (by decide)) (Nat.pow_pos (by decide)), ?_⟩
  show ((10 ^ k.toNat * 2 ^ (-i.exponent).toNat : ℕ) : ℚ) * _ = _
  push_cast
  rw [pow_toNat (show (10 : ℚ) ≠ 0 by norm_num) k, pow_toNat (show (2 : ℚ) ≠ 0 by norm_num) i.exponent]
  ring

end Interval

/-- What is known of the shortest decimal of the number `m * 2 ^ e`. -/
structure Nearby (m : ℕ) (e : ℤ) (d : Decimal) : Prop where
  pos : 0 < d.coefficient
  /-- It lies in the rounding interval. -/
  inside : |d.value - m * 2 ^ e| ≤ 2 ^ e / 2
  /-- If it is an end of the interval, the mantissa is even. -/
  even : |d.value - m * 2 ^ e| = 2 ^ e / 2 → m % 2 = 0
  /-- No point of its grid is nearer. -/
  nearest : |d.value - m * 2 ^ e| ≤ 10 ^ d.exponent / 2
  /-- A grid ten times as coarse has no smaller steps than the interval is long. -/
  coarse : 2 ^ e ≤ (10 : ℚ) ^ (d.exponent + 1)

section

variable {m : ℕ} {e : ℤ} {i : Interval} (hm : 0 < m) (hmiddle : i.middle = 4 * m)
  (hlow : i.low = 4 * m - 2) (hhigh : i.high = 4 * m + 2) (hexp : i.exponent = e - 2)

include hm hmiddle hlow hhigh hexp

/-- A symmetric interval has a point on every grid with steps shorter than itself. -/
lemma isSome_nearest?_of_lt {tie : Tie} {k : ℤ} (h : (10 : ℚ) ^ k < 2 ^ e) :
    ((i.scaled k).nearest? tie).isSome := by
  obtain ⟨f, hf, hscaled, hunit, hvalue⟩ := i.exists_scaled k
  rw [hscaled]
  refine Scaled.isSome_nearest? (w := 2 * f) hunit ?_ ?_ ?_
  · simp only [hlow, hmiddle, ← add_mul]
    congr 1
    omega
  · simp only [hhigh, hmiddle, ← add_mul]
  · have hfour : (2 : ℚ) ^ e = 4 * 2 ^ i.exponent := by
      rw [hexp, zpow_sub₀ (by norm_num)]
      norm_num
      ring
    have hcast : ((i.scaled k).unit : ℚ) < 2 * (2 * f) := by
      refine lt_of_mul_lt_mul_right ?_ (show (0 : ℚ) ≤ 2 ^ i.exponent by positivity)
      calc ((i.scaled k).unit : ℚ) * 2 ^ i.exponent
          = f * 10 ^ k := hvalue
        _ < f * 2 ^ e := mul_lt_mul_of_pos_left h (by exact_mod_cast hf)
        _ = 2 * (2 * f) * 2 ^ i.exponent := by
            rw [hfour]
            ring
    exact_mod_cast hcast

omit hexp in
/-- A hit of a symmetric interval, in the unit in which the interval and the grid are measured: there a
quarter of the distance of two numbers is `f`, and that of two points is `u`.

**Proof sketch.** This is `Scaled.nearest?_spec` with signed differences in place of sums. -/
lemma exists_of_hits {tie : Tie} {d : Decimal} (h : Hits i tie d) :
    ∃ f u : ℕ, 0 < f ∧ (u : ℚ) * 2 ^ i.exponent = f * 10 ^ d.exponent ∧
      |(d.coefficient * u - 4 * m * f : ℚ)| ≤ 2 * f ∧
      (|(d.coefficient * u - 4 * m * f : ℚ)| = 2 * f → i.closed = true) ∧
      |(d.coefficient * u - 4 * m * f : ℚ)| ≤ u / 2 := by
  obtain ⟨f, hf, hscaled, hunit, hvalue⟩ := i.exists_scaled d.exponent
  rw [Hits, hscaled] at h
  generalize (i.scaled d.exponent).unit = u at hunit hvalue h
  have hleft : (4 * m - 2) * f + 2 * f = 4 * m * f := by
    rw [← add_mul]
    congr 1
    omega
  have hright : 4 * m * f + 2 * f = (4 * m + 2) * f := (add_mul _ _ _).symm
  simp only [hlow, hmiddle, hhigh] at h
  obtain ⟨hinside, hbelow, habove⟩ := Scaled.nearest?_spec hunit hleft hright h
  rw [Scaled.contains_iff] at hinside
  dsimp only at hinside hbelow habove
  refine ⟨f, u, hf, hvalue, ?_, ?_, ?_⟩
  · have hlower : (4 * m * f : ℚ) ≤ d.coefficient * u + 2 * f := by
      exact_mod_cast (by omega : 4 * m * f ≤ d.coefficient * u + 2 * f)
    have hupper : (d.coefficient * u : ℚ) ≤ 4 * m * f + 2 * f := by
      exact_mod_cast (by omega : d.coefficient * u ≤ 4 * m * f + 2 * f)
    rw [abs_le]
    constructor <;> linarith
  · intro hend
    by_contra hopen
    obtain ⟨hlower, hupper⟩ := hinside.resolve_right fun h => hopen h.1
    have hlower : (4 * m * f : ℚ) < d.coefficient * u + 2 * f := by
      exact_mod_cast (by omega : 4 * m * f < d.coefficient * u + 2 * f)
    have hupper : (d.coefficient * u : ℚ) < 4 * m * f + 2 * f := by
      exact_mod_cast (by omega : d.coefficient * u < 4 * m * f + 2 * f)
    have hstrict : |(d.coefficient * u - 4 * m * f : ℚ)| < 2 * f := by
      rw [abs_lt]
      constructor <;> linarith
    exact hstrict.ne hend
  · have hlower : (2 * (4 * m * f) : ℚ) ≤ 2 * (d.coefficient * u) + u := by exact_mod_cast habove
    have hupper : (2 * (d.coefficient * u) : ℚ) ≤ 2 * (4 * m * f) + u := by exact_mod_cast hbelow
    rw [abs_le]
    constructor <;> linarith

/-- A hit of a symmetric interval.

**Proof sketch.** The interval and the grid are measured in one unit `t`, in which all the numbers are
whole: `10 ^ k` is `u * t` and `2 ^ e` is `4 * f * t`. So what is known of the hit as a point
(`exists_of_hits`) holds of the decimal after a multiplication by `t`. It is not zero, since zero is at
least a whole `2 ^ e` away from the middle. -/
lemma nearby_of_hits {tie : Tie} {d : Decimal} (heven : i.closed = true → m % 2 = 0)
    (h : Hits i tie d) (hcoarse : 2 ^ e ≤ (10 : ℚ) ^ (d.exponent + 1)) : Nearby m e d := by
  obtain ⟨f, u, hf, hvalue, hinside, hclosed, hnearest⟩ :=
    exists_of_hits hm hmiddle hlow hhigh h
  have hfpos : (0 : ℚ) < f := by exact_mod_cast hf
  obtain ⟨t, htpos, hpow⟩ : ∃ t : ℚ, 0 < t ∧ (2 : ℚ) ^ i.exponent = t * f :=
    ⟨2 ^ i.exponent / f, by positivity, (div_mul_cancel₀ _ hfpos.ne').symm⟩
  have hten : (10 : ℚ) ^ d.exponent = u * t := by
    rw [hpow] at hvalue
    refine mul_left_cancel₀ hfpos.ne' ?_
    rw [← hvalue]
    ring
  have htwo : (2 : ℚ) ^ e = 4 * f * t := by
    rw [show e = i.exponent + 2 by omega, zpow_add₀ (by norm_num), hpow]
    norm_num
    ring
  have hdistance : |d.value - m * 2 ^ e| = |(d.coefficient * u - 4 * m * f : ℚ)| * t := by
    have hscale : d.value - m * 2 ^ e = (d.coefficient * u - 4 * m * f) * t := by
      rw [value, hten, htwo]
      ring
    rw [hscale, abs_mul, abs_of_pos htpos]
  refine ⟨?_, ?_, fun hend => heven (hclosed ?_), ?_, hcoarse⟩
  · by_contra hzero
    have hnone : d.coefficient = 0 := by omega
    have hone : (1 : ℚ) ≤ m := by exact_mod_cast hm
    rw [hnone, Nat.cast_zero, zero_mul, zero_sub, abs_neg, abs_of_pos (by positivity)] at hinside
    linarith [mul_le_mul_of_nonneg_right hone hfpos.le]
  · rw [hdistance, htwo]
    linarith [mul_le_mul_of_nonneg_right hinside htpos.le]
  · rw [hdistance, htwo] at hend
    exact mul_right_cancel₀ htpos.ne' (by rw [hend]; ring)
  · rw [hdistance, hten]
    linarith [mul_le_mul_of_nonneg_right hnearest htpos.le]

end

/-! ## Single precision -/

/-- Twenty-three grids below the first one, the steps are shorter than any interval. -/
lemma ten_zpow_lt_two_zpow {e : ℤ} (hmin : -149 ≤ e) (hmax : e ≤ 104) :
    (10 : ℚ) ^ ((e + 24) * 30103 / 100000 - 22) < 2 ^ e := by
  refine Binary32.forall_exponent hmin hmax ?_
  decide +kernel

/-- Above the first grid, the steps are no shorter than the interval. -/
lemma two_zpow_le_ten_zpow {e : ℤ} (hmin : -149 ≤ e) (hmax : e ≤ 104) :
    (2 : ℚ) ^ e ≤ 10 ^ ((e + 1) * 30103 / 100000 + 2) := by
  refine Binary32.forall_exponent hmin hmax ?_
  decide +kernel

/-- **The shortest decimal lies in the rounding interval**, unless that is not symmetric: below a
power of two the numbers are closer to each other.

**Proof sketch.** Within the grids that are tried there is one with steps shorter than the interval,
so the search ends with a hit (`Interval.search_spec`). The grid before it has none, so the steps of that
one are no shorter than the interval. If the hit is on the first grid, the one before is coarse enough in
any case (`two_zpow_le_ten_zpow`). -/
theorem nearby_shortest (tie : Tie) {m : ℕ} {e : ℤ} (h : Canonical .binary32 m e) (hm : 0 < m)
    (hmax : e ≤ 104) (hpower : m ≠ 2 ^ 23 ∨ e = -149) :
    Nearby m e (shortest .binary32 tie m e) := by
  have hmin : -149 ≤ e := h.minExponent_le
  have hlog : m.log2 < 24 := (Nat.log2_lt hm.ne').2 h.lt
  have hlow : (Interval.around .binary32 m e).low = 4 * m - 2 := by
    refine if_neg fun hboth => ?_
    have hlt : -149 < e := hboth.2
    exact hpower.elim (fun hne => hne hboth.1) fun heq => by omega
  have hfine : ((Interval.around .binary32 m e).scaled (gridAbove m e - (23 : ℕ))).nearest? tie
      |>.isSome := by
    refine isSome_nearest?_of_lt hm rfl hlow rfl rfl (lt_of_le_of_lt ?_ (ten_zpow_lt_two_zpow hmin hmax))
    refine zpow_le_zpow_right₀ (by norm_num) ?_
    rw [gridAbove]
    omega
  obtain ⟨hhit, hle, hbefore⟩ := (Interval.around .binary32 m e).search_spec tie
    (show 23 < Format.binary32.mantissaBits by decide) hfine
  refine nearby_of_hits hm rfl hlow rfl rfl of_decide_eq_true hhit ?_
  by_contra hfiner
  rcases eq_or_lt_of_le hle with hfirst | hlater
  · refine hfiner ((two_zpow_le_ten_zpow hmin hmax).trans (zpow_le_zpow_right₀ (by norm_num) ?_))
    rw [shortest, hfirst, gridAbove]
    omega
  · have hnone := hbefore _ (Int.lt_succ _) hlater
    have hsome : (((Interval.around .binary32 m e).scaled _).nearest? tie).isSome :=
      isSome_nearest?_of_lt hm rfl hlow rfl rfl (not_le.1 hfiner)
    rw [shortest, hnone] at hsome
    cases hsome

end Ribbon.Decimal
