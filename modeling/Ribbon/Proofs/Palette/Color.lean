import Ribbon.Proofs.Binary.Blend
import Ribbon.Proofs.Binary.Status
import Ribbon.Proofs.Binary.Whole
import Ribbon.Proofs.Palette.Cycle

/-!
# The colours of a palette

The colour at an index is a blend of the two stops around the wrapped index. The whole part and the
fraction of the wrapped index are exact, so every component of the colour lies between the two
components it is blended from, and at a whole number the colour is the stop itself. An index that is
wrapped to the period shows the first stop, since the stops are counted around the cycle.

Adding the period changes nothing, as long as the sum is exact: the remainders are the same, and a
remainder is rounded only after that.

## Main definitions

* `Ribbon.Vec4.channel` — the components of a colour by their numbers.
* `Ribbon.Palette.IsModest` — the palettes whose components can be subtracted from each other.

## Main results

* `Ribbon.Palette.colorAt_eq` — the two stops of a colour, and the fraction.
* `Ribbon.Palette.colorAt_between` — a colour lies between two neighbouring stops.
* `Ribbon.Palette.colorAt_add_period` — the colours repeat after one period.
-/

set_option relaxedAutoImplicit false
set_option autoImplicit false

namespace Ribbon

open Binary (approx greatest residue)
open Binary32 (value)

/-! ## Components -/

namespace Vec4

/-- The components of a colour by their numbers. -/
def channel (v : Vec4) : Fin 4 → Float32
  | 0 => v.x
  | 1 => v.y
  | 2 => v.z
  | 3 => v.w

/-- Colours are compared component by component. -/
lemma beq_iff_channel {v w : Vec4} : (v == w) = true ↔ ∀ k, (v.channel k == w.channel k) = true := by
  change (v.x == w.x && v.y == w.y && v.z == w.z && v.w == w.w) = true ↔ _
  simp only [Bool.and_eq_true, and_assoc, Fin.forall_fin_succ, IsEmpty.forall_iff, and_true]
  rfl

end Vec4

namespace Palette

/-- Colours are blended component by component. -/
lemma channel_blend (lower upper : Vec4) (f : Float32) (k : Fin 4) :
    (blend lower upper f).channel k =
      lower.channel k - (lower.channel k - upper.channel k) * f := by
  match k with
  | 0 | 1 | 2 | 3 => rfl

/-! ## Stops -/

/-- Every component of every stop is a finite number, and at most `2 ^ 126` in size: a quarter of the
range of single precision, so that differences stay within it. -/
def IsModest (p : Palette) : Prop :=
  ∀ s ∈ p.stops, ∀ k, (s.channel k).isFinite = true ∧ |value (s.channel k)| ≤ 2 ^ 126

instance (p : Palette) : Decidable p.IsModest :=
  inferInstanceAs (Decidable (∀ s ∈ p.stops, _))

/-- Stops are counted around the cycle. -/
@[simp]
lemma stop_mod (p : Palette) (n : ℕ) : p.stop (n % p.size) = p.stop n := by
  simp only [stop, size, Nat.mod_mod]

/-- Every stop of the cycle is one of the palette. -/
lemma stop_mem (p : Palette) (n : ℕ) : p.stop n ∈ p.stops :=
  Array.getElem_mem _

variable {p : Palette} (hsize : p.size ≤ 2 ^ 24) {i : Float32} (hi : i.isFinite = true)

/-! ## Blending at an index -/

/-- The number of the stop below an index. -/
def below (p : Palette) (i : Float32) : ℕ :=
  ⌊value (p.wrap i)⌋₊ % p.size

/-- How far an index is from the stop below it. -/
def fraction (p : Palette) (i : Float32) : Float32 :=
  p.wrap i - Binary32.floor (p.wrap i)

section

include hsize hi

/-- **A colour is blended from two neighbouring stops**, the one below the index and the next one. -/
theorem colorAt_eq :
    p.colorAt i = blend (p.stop (p.below i)) (p.stop (p.below i + 1)) (p.fraction i) := by
  obtain ⟨hnonneg, hle⟩ := value_wrap_mem_Icc hsize hi
  have hcast : (p.size : ℚ) ≤ 2 ^ 24 := by exact_mod_cast hsize
  have hwhole := Binary32.toNat_toUInt64_floor (wrap_spec hsize hi).1 hnonneg (by linarith)
  rw [colorAt, hwhole, below, fraction, stop_mod]

/-- The fraction is exact, and less than one by a last digit. -/
lemma fraction_spec : (p.fraction i).isFinite = true ∧
    value (p.fraction i) = Int.fract (value (p.wrap i)) ∧
    0 ≤ value (p.fraction i) ∧ value (p.fraction i) ≤ 1 - 1 / 2 ^ 24 :=
  Binary32.fraction_spec (wrap_spec hsize hi).1 (value_wrap_mem_Icc hsize hi).1

/-- Every component of a colour is the rounded blend of two components, and lies between them. -/
lemma IsModest.channel_colorAt (h : p.IsModest) (k : Fin 4) :
    let lower := (p.stop (p.below i)).channel k
    let upper := (p.stop (p.below i + 1)).channel k
    let c := (p.colorAt i).channel k
    c.isFinite = true ∧
      value c = Binary.blended .binary32 (value lower) (value upper) (value (p.fraction i)) ∧
      value c ∈ Set.uIcc (value lower) (value upper) := by
  intro lower upper c
  obtain ⟨hlower, hlowerSize⟩ := h _ (p.stop_mem (p.below i)) k
  obtain ⟨hupper, hupperSize⟩ := h _ (p.stop_mem (p.below i + 1)) k
  obtain ⟨hfinite, -, hnonneg, hlt⟩ := fraction_spec hsize hi
  have hdiff : |value lower - value upper| ≤ greatest .binary32 := by
    have hgreatest : (2 : ℚ) ^ 126 + 2 ^ 126 ≤ greatest .binary32 := by decide +kernel
    calc |value lower - value upper|
        ≤ |value lower| + |value upper| := abs_sub _ _
      _ ≤ 2 ^ 126 + 2 ^ 126 := add_le_add hlowerSize hupperSize
      _ ≤ greatest .binary32 := hgreatest
  have hblend := Binary32.blend_spec hlower hupper hdiff hfinite hnonneg hlt
  rwa [← channel_blend, ← colorAt_eq hsize hi] at hblend

/-- An index that is a whole number is wrapped to the number of a stop. -/
lemma value_wrap_of_int {n : ℤ} (hn : value i = n) :
    value (p.wrap i) = ((n % p.size).toNat : ℕ) := by
  have hpos : 0 < p.size := p.size_pos
  have hresidue := Binary.emod_mul_zpow n 0 hpos
  rw [zpow_zero, mul_one, mul_one, mul_one] at hresidue
  have hnonneg := Int.emod_nonneg n (by omega : (p.size : ℤ) ≠ 0)
  have hlt := Int.emod_lt_of_pos n (by omega : (0 : ℤ) < p.size)
  rw [(wrap_spec hsize hi).2, hn, ← hresidue, ← Int.toNat_of_nonneg hnonneg, Int.cast_natCast,
    Int.toNat_natCast, Binary.approx_of_nonneg _ (by positivity), Binary32.rounded_natCast (by omega)]

/-- **At a whole number the colour is a stop.** -/
lemma IsModest.colorAt_of_int (h : p.IsModest) {n : ℤ} (hn : value i = n) :
    (p.colorAt i == p.stop (n % p.size).toNat) = true := by
  have hwrap := value_wrap_of_int hsize hi hn
  have hbelow : p.below i = (n % p.size).toNat % p.size := by
    rw [below, hwrap, Nat.floor_natCast]
  have hfraction : value (p.fraction i) = 0 := by
    rw [(fraction_spec hsize hi).2.1, hwrap, Int.fract_natCast]
  rw [Vec4.beq_iff_channel]
  intro k
  obtain ⟨hfinite, hvalue, -⟩ := h.channel_colorAt hsize hi k
  obtain ⟨hstop, -⟩ := h _ (p.stop_mem (n % p.size).toNat) k
  have hzero := (Binary32.regular_decode hstop).blended_zero
  rw [hfraction, hbelow, stop_mod] at hvalue
  rw [Binary32.beq_iff hfinite hstop, hvalue]
  exact hzero _

end

/-- **Colours stay between their stops.** At a finite index of a modest palette every component of the
colour is a number, it lies between the components of the stop below the wrapped index and the next
one, and so within the range of the whole palette. If the index is a whole number, whatever its sign and
size, the colour is the stop with that number, counted around the cycle. -/
theorem colorAt_between (p : Palette) (hsize : p.size ≤ 2 ^ 24) (hmodest : p.IsModest) {i : Float32}
    (hi : i.isFinite = true) :
    (∀ k : Fin 4,
      let j := ⌊value (p.wrap i)⌋₊ % p.size
      let lower := (p.stop j).channel k
      let upper := (p.stop ((j + 1) % p.size)).channel k
      let c := (p.colorAt i).channel k
      c.isFinite = true ∧ c.isNaN = false ∧
        (lower ≤ c ∧ c ≤ upper ∨ upper ≤ c ∧ c ≤ lower) ∧
        (∃ s ∈ p.stops, s.channel k ≤ c) ∧ ∃ s ∈ p.stops, c ≤ s.channel k) ∧
      ∀ n : ℤ, value i = n → (p.colorAt i == p.stop (n % p.size).toNat) = true := by
  refine ⟨fun k => ?_, fun n hn => hmodest.colorAt_of_int hsize hi hn⟩
  intro j lower upper c
  obtain ⟨hfinite, -, hmem⟩ := hmodest.channel_colorAt hsize hi k
  obtain ⟨hlower, -⟩ := hmodest _ (p.stop_mem j) k
  obtain ⟨hupper, -⟩ := hmodest _ (p.stop_mem ((j + 1) % p.size)) k
  have hbetween : lower ≤ c ∧ c ≤ upper ∨ upper ≤ c ∧ c ≤ lower := by
    rw [Binary32.le_iff hlower hfinite, Binary32.le_iff hfinite hupper,
      Binary32.le_iff hupper hfinite, Binary32.le_iff hfinite hlower, p.stop_mod (j + 1)]
    exact Set.mem_uIcc.1 hmem
  refine ⟨hfinite, Binary32.isNaN_of_isFinite hfinite, hbetween, ?_⟩
  rcases hbetween with ⟨hlow, hhigh⟩ | ⟨hlow, hhigh⟩
  · exact ⟨⟨_, p.stop_mem _, hlow⟩, _, p.stop_mem _, hhigh⟩
  · exact ⟨⟨_, p.stop_mem _, hlow⟩, _, p.stop_mem _, hhigh⟩

/-- Two colours as far apart as the stops of a modest palette can be. -/
def glaring : Palette where
  stops := #[⟨.ofBits 0x7e800000, 0, .ofBits 0xfe800000, 1⟩, ⟨.ofBits 0xfe800000, 1, 0, 1⟩]
  size_pos := by decide

/-- The index `-1 / 4` is blended from the last stop into the first one, and the whole number `-7` names
the last stop. -/
theorem colorAt_between_glaring :
    glaring.size ≤ 2 ^ 24 ∧ glaring.IsModest ∧ Float32.isFinite (-0.25) = true ∧
      ⌊value (glaring.wrap (-0.25))⌋₊ % glaring.size = 1 ∧
      ((glaring.stop 1).channel 0 ≤ (glaring.colorAt (-0.25)).channel 0 ∧
        (glaring.colorAt (-0.25)).channel 0 ≤ (glaring.stop 0).channel 0) ∧
      Float32.isFinite (-7) = true ∧ value (-7) = (-7 : ℤ) ∧
      (glaring.colorAt (-7) == glaring.stop 1) = true := by
  have hsize : glaring.size ≤ 2 ^ 24 := by decide
  have hmodest : glaring.IsModest := by decide +kernel
  have hquarter : Float32.isFinite (-0.25) = true := by decide +kernel
  have hseven : Float32.isFinite (-7) = true := by decide +kernel
  have hbelow : ⌊value (glaring.wrap (-0.25))⌋₊ % glaring.size = 1 := by decide +kernel
  have hnext : (1 + 1) % glaring.size = 0 := by decide
  have hwhole : value (-7) = (-7 : ℤ) := by decide +kernel
  have hfalling : ¬((glaring.stop 0).channel 0 ≤ (glaring.colorAt (-0.25)).channel 0 ∧
      (glaring.colorAt (-0.25)).channel 0 ≤ (glaring.stop 1).channel 0) := by decide +kernel
  obtain ⟨-, -, hbetween, -⟩ := (colorAt_between glaring hsize hmodest hquarter).1 0
  have hstop := (colorAt_between glaring hsize hmodest hseven).2 (-7) hwhole
  rw [hbelow, hnext] at hbetween
  exact ⟨hsize, hmodest, hquarter, hbelow, hbetween.resolve_right hfalling, hseven, hwhole, hstop⟩

/-! ## One period further -/

section

include hsize hi

/-- The colour depends only on the value of the wrapped index, not on the sign of a zero. -/
lemma colorAt_congr {j : Float32} (hj : j.isFinite = true)
    (h : value (p.wrap i) = value (p.wrap j)) : p.colorAt i = p.colorAt j := by
  have hfinite := (wrap_spec hsize hi).1
  have hfinite' := (wrap_spec hsize hj).1
  have hbelow : p.below i = p.below j := by rw [below, below, h]
  have hfraction : p.fraction i = p.fraction j := by
    by_cases hzero : value (p.wrap j) = 0
    · have hstart {w : Float32} (hw : w = 0 ∨ w = -0) : w - Binary32.floor w = 0 := by
        rcases hw with rfl | rfl <;> decide +kernel
      rw [fraction, fraction, hstart (Binary32.eq_zero_or_of_value_eq_zero hfinite' hzero),
        hstart (Binary32.eq_zero_or_of_value_eq_zero hfinite (h.trans hzero))]
    · rw [fraction, fraction, Binary32.eq_of_value_eq hfinite hfinite' h (h ▸ hzero)]
  rw [colorAt_eq hsize hi, colorAt_eq hsize hj, hbelow, hfraction]

/-- An exact sum with the period is wrapped to the same number. -/
lemma value_wrap_add_period {j : Float32} (hj : j.isFinite = true)
    (h : value j = value i + p.size) : value (p.wrap j) = value (p.wrap i) := by
  have hpos : (0 : ℚ) < p.size := by exact_mod_cast p.size_pos
  rw [(wrap_spec hsize hj).2, (wrap_spec hsize hi).2, h, Binary.residue_add_self hpos]

end

/-- **The colours repeat after one period.** Whatever the stops are, if the sum of a finite index and the
number of stops is a number of single precision, then the colour there is the colour at the index, to the
last bit: at every such number, and at the sum as it is computed. -/
theorem colorAt_add_period (p : Palette) (hsize : p.size ≤ 2 ^ 24) {x y : Float32}
    (hx : x.isFinite = true) (hy : y.isFinite = true) (hexact : value y = value x + p.size) :
    p.colorAt y = p.colorAt x ∧
      value (x + p.period) = value x + p.size ∧ p.colorAt (x + p.period) = p.colorAt x := by
  obtain ⟨hperiod, hlength⟩ := period_spec hsize
  have hsum : approx .binary32 (value x + value p.period) = value y := by
    rw [hlength, ← hexact]
    exact Binary32.approx_value hy
  obtain ⟨hfinite, hvalue⟩ :=
    Binary32.add_spec hx hperiod (by rw [hsum]; exact Binary32.abs_value_le y)
  rw [hsum, hexact] at hvalue
  exact ⟨colorAt_congr hsize hy hx (value_wrap_add_period hsize hx hy hexact), hvalue,
    colorAt_congr hsize hfinite hx (value_wrap_add_period hsize hx hfinite hvalue)⟩

/-- The index `-1 / 2` and the one a period of three colours further. -/
theorem colorAt_add_period_standard :
    standard.size ≤ 2 ^ 24 ∧ Float32.isFinite (-0.5) = true ∧ Float32.isFinite 2.5 = true ∧
      value 2.5 = value (-0.5) + standard.size ∧ standard.colorAt 2.5 = standard.colorAt (-0.5) := by
  have hsize : standard.size ≤ 2 ^ 24 := by decide
  have hx : Float32.isFinite (-0.5) = true := by decide +kernel
  have hy : Float32.isFinite 2.5 = true := by decide +kernel
  have hexact : value 2.5 = value (-0.5) + standard.size := by decide +kernel
  exact ⟨hsize, hx, hy, hexact, (colorAt_add_period standard hsize hx hy hexact).1⟩

end Palette

end Ribbon
