import Mathlib.Algebra.Order.Ring.Int
import Mathlib.Logic.Function.Iterate
import Mathlib.Tactic.LinearCombination
import Ribbon.Proofs.Binary.Packing

/-!
# Multiples that nearly meet

How near a multiple of one number can come to a multiple of another, if neither is a large multiple.
Pairs of multiples are points of a lattice, and any two points next to each other divide it: a point
between them has coordinates at least as large as their sum, and a point outside has multiples at
least as far apart as those of both together. So it is enough to look at the multiples of the two
points themselves.

## Main definitions

* `Ribbon.Decimal.Ray` — a pair of multiples and their distance.
* `Ribbon.Decimal.Cone` — two points of the lattice next to each other.
* `Ribbon.Decimal.Cone.narrow` — the cone after the search for nearer multiples.

## Main results

* `Ribbon.Decimal.Cone.cases_of_lt` — what is known of any small pair of multiples.
-/

set_option relaxedAutoImplicit false
set_option autoImplicit false

namespace Ribbon.Decimal

/-- A multiple of one number and a multiple of another, with their distance. -/
structure Ray where
  /-- How often the first number is taken. -/
  x : ℕ
  /-- How often the second number is taken. -/
  y : ℕ
  rest : ℕ

/-- The sum of a ray and `t` times another one whose multiples are apart the other way round. -/
def Ray.add (r : Ray) (t : ℕ) (s : Ray) : Ray :=
  ⟨r.x + t * s.x, r.y + t * s.y, r.rest - t * s.rest⟩

/-- Two rays next to each other. -/
structure Cone (a b : ℕ) where
  /-- The ray with the larger multiple of `a`. -/
  above : Ray
  /-- The ray with the larger multiple of `b`. -/
  below : Ray
  above_eq : above.x * a = above.y * b + above.rest
  below_eq : below.x * a + below.rest = below.y * b
  adjacent : above.x * below.y = below.x * above.y + 1

namespace Cone

variable {a b : ℕ}

/-! ## The search -/

variable (a b) in
/-- The cone of all pairs. -/
def start : Cone a b where
  above := ⟨1, 0, a⟩
  below := ⟨0, 1, b⟩
  above_eq := by simp
  below_eq := by simp
  adjacent := by simp

/-- The cone whose upper ray is nearer to the lower one. -/
def lower (c : Cone a b) (t : ℕ) (h : t * c.below.rest ≤ c.above.rest) : Cone a b where
  above := c.above.add t c.below
  below := c.below
  above_eq := by
    simp only [Ray.add]
    have habove := c.above_eq
    have hbelow := c.below_eq
    zify [h] at *
    linear_combination habove + t * hbelow
  below_eq := c.below_eq
  adjacent := by
    simp only [Ray.add]
    linarith [c.adjacent]

/-- The cone whose lower ray is nearer to the upper one. -/
def raise (c : Cone a b) (t : ℕ) (h : t * c.above.rest ≤ c.below.rest) : Cone a b where
  above := c.above
  below := c.below.add t c.above
  above_eq := c.above_eq
  below_eq := by
    simp only [Ray.add]
    have habove := c.above_eq
    have hbelow := c.below_eq
    zify [h] at *
    linear_combination hbelow + t * habove
  adjacent := by
    simp only [Ray.add]
    linarith [c.adjacent]

/-- How often a ray is added to another: until it is the further one of the two, or the sum of both has
reached the limit. -/
def times (limit : ℕ) (far near : Ray) : ℕ :=
  let enough := (limit - far.x - near.x) / near.x + 1
  if near.rest = 0 then enough else min (far.rest / near.rest) enough

/-- The ray that is added so often does not cross the line. -/
lemma times_mul_le (limit : ℕ) (far near : Ray) :
    times limit far near * near.rest ≤ far.rest := by
  simp only [times]
  split
  · next hzero => simp [hzero]
  · exact (Nat.mul_le_mul_right _ (min_le_left _ _)).trans (Nat.div_mul_le_self _ _)

/-- One round of the search: the ray that is further off is replaced. -/
def refine (limit : ℕ) (c : Cone a b) : Cone a b :=
  if limit ≤ c.above.x + c.below.x then c
  else if c.below.rest ≤ c.above.rest then
    c.lower (times limit c.above c.below) (times_mul_le _ _ _)
  else c.raise (times limit c.below c.above) (times_mul_le _ _ _)

variable (a b) in
/-- The cone after so many rounds. -/
def narrow (limit rounds : ℕ) : Cone a b :=
  (refine limit)^[rounds] (start a b)

/-! ## Small pairs -/

/-- **A small pair of multiples** is a multiple of one of the two rays, or its multiples are at least as
far apart as those of both rays together.

**Proof sketch.** It is a combination of the two rays with whole coefficients. Were both positive, the
pair would be too large; if they have different signs, the distances add up. -/
theorem cases_of_lt (c : Cone a b) {n m : ℕ} (hn : 0 < n) (hlt : n < c.above.x + c.below.x) :
    (∃ t, n = t * c.above.x ∧ m = t * c.above.y) ∨ (∃ t, n = t * c.below.x ∧ m = t * c.below.y) ∨
      ((c.above.rest + c.below.rest : ℕ) : ℤ) ≤ |(n * a : ℤ) - m * b| := by
  have habove : (c.above.x * a : ℤ) = c.above.y * b + c.above.rest := by exact_mod_cast c.above_eq
  have hbelow : (c.below.x * a + c.below.rest : ℤ) = c.below.y * b := by exact_mod_cast c.below_eq
  have hadjacent : (c.above.x * c.below.y : ℤ) = c.below.x * c.above.y + 1 := by
    exact_mod_cast c.adjacent
  obtain ⟨s, hs⟩ : ∃ s : ℤ, s = n * c.below.y - m * c.below.x := ⟨_, rfl⟩
  obtain ⟨t, ht⟩ : ∃ t : ℤ, t = m * c.above.x - n * c.above.y := ⟨_, rfl⟩
  have hx : (n : ℤ) = s * c.above.x + t * c.below.x := by
    rw [hs, ht]
    linear_combination (-n : ℤ) * hadjacent
  have hy : (m : ℤ) = s * c.above.y + t * c.below.y := by
    rw [hs, ht]
    linear_combination (-m : ℤ) * hadjacent
  have hdistance : (n * a : ℤ) - m * b = s * c.above.rest - t * c.below.rest := by
    rw [hx, hy]
    linear_combination s * habove + t * hbelow
  have hax : (0 : ℤ) ≤ c.above.x := by positivity
  have hbx : (0 : ℤ) ≤ c.below.x := by positivity
  have har : (0 : ℤ) ≤ c.above.rest := by positivity
  have hbr : (0 : ℤ) ≤ c.below.rest := by positivity
  have hn : (0 : ℤ) < n := by exact_mod_cast hn
  have hlt : (n : ℤ) < c.above.x + c.below.x := by exact_mod_cast hlt
  clear hs ht
  rcases lt_trichotomy s 0 with hs | rfl | hs
  · -- the other coefficient is positive, since the combination is
    have hsx := mul_nonneg (neg_nonneg.2 hs.le) hax
    have ht : 0 < t := by
      by_contra hneg
      have htx := mul_nonneg (neg_nonneg.2 (not_lt.1 hneg)) hbx
      linarith
    have hsr := mul_nonneg (show 0 ≤ -s - 1 by omega) har
    have htr := mul_nonneg (show 0 ≤ t - 1 by omega) hbr
    refine .inr (.inr ?_)
    rw [hdistance, abs_sub_comm]
    refine le_trans ?_ (le_abs_self _)
    push_cast
    linarith
  · rw [zero_mul, zero_add] at hx hy
    have ht : 0 ≤ t := by
      by_contra hneg
      have htx := mul_nonneg (neg_nonneg.2 (not_le.1 hneg).le) hbx
      linarith
    obtain ⟨k, rfl⟩ := Int.eq_ofNat_of_zero_le ht
    exact .inr (.inl ⟨k, by exact_mod_cast hx, by exact_mod_cast hy⟩)
  · rcases lt_trichotomy t 0 with ht | rfl | ht
    · have hsr := mul_nonneg (show 0 ≤ s - 1 by omega) har
      have htr := mul_nonneg (show 0 ≤ -t - 1 by omega) hbr
      refine .inr (.inr ?_)
      rw [hdistance]
      refine le_trans ?_ (le_abs_self _)
      push_cast
      linarith
    · rw [zero_mul, add_zero] at hx hy
      obtain ⟨k, rfl⟩ := Int.eq_ofNat_of_zero_le hs.le
      exact .inl ⟨k, by exact_mod_cast hx, by exact_mod_cast hy⟩
    · have hsx := mul_nonneg (show 0 ≤ s - 1 by omega) hax
      have htx := mul_nonneg (show 0 ≤ t - 1 by omega) hbx
      linarith

end Cone

/-! ## Decimals and half-way points -/

/-- The first decimal grid that is no finer than the numbers with exponent `e`. -/
def coarseGrid (e : ℤ) : ℤ := -(-e * 30103 / 100000)

/-- The step of the grid, in a unit that also divides the half of `2 ^ e`. -/
def gridUnits (e : ℤ) : ℕ := 10 ^ (coarseGrid e).toNat * 2 ^ (1 - e).toNat

/-- The half of `2 ^ e` in the same unit. -/
def halfUnits (e : ℤ) : ℕ := 2 ^ (e - 1).toNat * 10 ^ (-coarseGrid e).toNat

/-- The least odd multiple of the half of `2 ^ e` that is half-way between two numbers. -/
def leastHalf (e : ℤ) : ℕ := if e = -149 then 1 else 2 ^ 24 + 1

/-- Whether the odd multiples of a ray are far enough apart, or meet. -/
def Ray.isClear (r : Ray) (b least : ℕ) : Bool :=
  r.rest = 0 || r.y % 2 = 0 || 2 ^ 25 ≤ r.y || 5 * b < ((least - 1) / r.y + 1) * r.rest * 2 ^ 29

/-- The one ray whose multiples come too near: `7038531` steps of `10 ^ -32`. -/
def Ray.isExceptional (r : Ray) (e : ℤ) : Bool :=
  e = -107 && r.x = 7038531 && 2 ^ 25 ≤ 2 * r.y

/-- The cone at one exponent. -/
def halfwayCone (e : ℤ) : Cone (gridUnits e) (halfUnits e) :=
  Cone.narrow _ _ (2 ^ 24) 40

/-- Whether all small decimals are far enough from the half-way points at one exponent, or meet
them. -/
def isClearAt (e : ℤ) : Bool :=
  let c := halfwayCone e
  2 ^ 24 ≤ c.above.x + c.below.x && 5 * halfUnits e < (c.above.rest + c.below.rest) * 2 ^ 29 &&
    (c.above.isClear (halfUnits e) (leastHalf e) || c.above.isExceptional e) &&
    (c.below.isClear (halfUnits e) (leastHalf e) || c.below.isExceptional e)

/-- All exponents of single-precision numbers. -/
lemma isClearAt_eq_true {e : ℤ} (hmin : -149 ≤ e) (hmax : e ≤ 104) : isClearAt e = true := by
  refine Binary32.forall_exponent hmin hmax ?_
  decide +kernel

/-- The odd multiples of a ray that is clear. -/
lemma Ray.rest_of_isClear {r : Ray} {b least t : ℕ} (h : r.isClear b least = true)
    (hodd : t * r.y % 2 = 1) (hleast : least ≤ t * r.y) (hmost : t * r.y < 2 ^ 25) :
    r.rest = 0 ∨ 5 * b < t * r.rest * 2 ^ 29 := by
  have hpos : 0 < t * r.y := by omega
  have ht : 0 < t := Nat.pos_of_mul_pos_right hpos
  have hy : 0 < r.y := Nat.pos_of_mul_pos_left hpos
  simp only [Ray.isClear, Bool.or_eq_true, decide_eq_true_eq] at h
  rcases h with ((hzero | heven) | hlarge) | hfar
  · exact .inl hzero
  · rw [Nat.mul_mod, heven, Nat.mul_zero, Nat.zero_mod] at hodd
    cases hodd
  · have := Nat.le_mul_of_pos_left r.y ht
    omega
  · have hmultiple : (least - 1) / r.y + 1 ≤ t := (Nat.div_lt_iff_lt_mul hy).2 (by omega)
    exact .inr (hfar.trans_le (Nat.mul_le_mul_right _ (Nat.mul_le_mul_right _ hmultiple)))

/-- The multiples of the ray that comes too near: it is the only one that is small enough. -/
lemma Ray.eq_of_isExceptional {r : Ray} {e : ℤ} {t : ℕ} (h : r.isExceptional e = true)
    (ht : 0 < t) (hmost : t * r.y < 2 ^ 25) : e = -107 ∧ t * r.x = 7038531 := by
  simp only [Ray.isExceptional, Bool.and_eq_true, decide_eq_true_eq] at h
  obtain ⟨⟨he, hx⟩, hy⟩ := h
  have hone : t = 1 := by
    by_contra hne
    have := Nat.mul_le_mul_right r.y (show 2 ≤ t by omega)
    omega
  rw [hone, hx]
  exact ⟨he, rfl⟩

/-- The distance of the multiples of a ray that is clear or exceptional. -/
lemma Ray.clear_or_exceptional {r : Ray} {b least t : ℕ} {e d : ℤ}
    (h : r.isClear b least = true ∨ r.isExceptional e = true) (hodd : t * r.y % 2 = 1)
    (hleast : least ≤ t * r.y) (hmost : t * r.y < 2 ^ 25) (hd : |d| = t * r.rest) :
    d = 0 ∨ (5 * b : ℤ) < |d| * 2 ^ 29 ∨ (e = -107 ∧ t * r.x = 7038531) := by
  rcases h with hclear | hexception
  · rcases r.rest_of_isClear hclear hodd hleast hmost with hzero | hfar
    · rw [hzero, Nat.cast_zero, mul_zero, abs_eq_zero] at hd
      exact .inl hd
    · rw [hd]
      exact .inr (.inl (by exact_mod_cast hfar))
  · have ht : 0 < t := Nat.pos_of_mul_pos_right (show 0 < t * r.y by omega)
    exact .inr (.inr (r.eq_of_isExceptional hexception ht hmost))

/-- **Decimals keep clear of half-way points.** A decimal with few digits on a coarse grid is half-way
between two numbers, or further from there than `5 / 2 ^ 29` of the half. There is one exception.

**Proof sketch.** A pair of multiples that is so small is a multiple of a ray of the narrowed cone, or
is further apart than both rays together (`Cone.cases_of_lt`). The rays have been checked at every
exponent: they are clear, or one is exceptional. -/
lemma clearance {e : ℤ} (hmin : -149 ≤ e) (hmax : e ≤ 104) {n m : ℕ} (hn : 0 < n)
    (hfew : n < 2 ^ 24) (hodd : m % 2 = 1) (hleast : leastHalf e ≤ m) (hmost : m < 2 ^ 25) :
    (n * gridUnits e - m * halfUnits e : ℤ) = 0 ∨
      (5 * halfUnits e : ℤ) < |(n * gridUnits e - m * halfUnits e : ℤ)| * 2 ^ 29 ∨
      (e = -107 ∧ n = 7038531) := by
  have hclear := isClearAt_eq_true hmin hmax
  simp only [isClearAt, Bool.and_eq_true, Bool.or_eq_true, decide_eq_true_eq] at hclear
  generalize halfwayCone e = c at hclear
  obtain ⟨⟨⟨hsize, hapart⟩, habove⟩, hbelow⟩ := hclear
  rcases c.cases_of_lt hn (hfew.trans_le hsize) (m := m) with ⟨t, rfl, rfl⟩ | ⟨t, rfl, rfl⟩ | hfar
  · have heq : (c.above.x * gridUnits e : ℤ) = c.above.y * halfUnits e + c.above.rest := by
      exact_mod_cast c.above_eq
    refine Ray.clear_or_exceptional habove hodd hleast hmost ?_
    rw [← abs_of_nonneg (show (0 : ℤ) ≤ t * c.above.rest by positivity)]
    congr 1
    push_cast
    linear_combination t * heq
  · have heq : (c.below.x * gridUnits e + c.below.rest : ℤ) = c.below.y * halfUnits e := by
      exact_mod_cast c.below_eq
    refine Ray.clear_or_exceptional hbelow hodd hleast hmost ?_
    rw [← abs_of_nonneg (show (0 : ℤ) ≤ t * c.below.rest by positivity), ← abs_neg]
    congr 1
    push_cast
    linear_combination -t * heq
  · have hapart : (5 * halfUnits e : ℤ) < (c.above.rest + c.below.rest : ℕ) * 2 ^ 29 := by
      exact_mod_cast hapart
    exact .inr (.inl (hapart.trans_le (by gcongr)))

end Ribbon.Decimal
