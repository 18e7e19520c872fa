import Mathlib.Tactic.FinCases
import Ribbon.Proofs.Palette.Cycle
import Ribbon.Proofs.Plan.Draw

/-!
# The numbers along a path

What rounding can do to the positions and to the colour index of the turtle, however long its way is.

## Main definitions

* `Ribbon.Vec3.isNowhere` — a coordinate in the plane is no number.
* `Ribbon.Plan.overwide` — a plan whose vertices have such coordinates.

## Main results

* `Ribbon.Turtle.isNowhere_positionAfter` — the turtle is always somewhere.
* `Ribbon.Stroke.exists_isNaN_outline` — the vertices of a stroke.
* `Ribbon.Plan.draw_isNaN_iff` — a vertex has a coordinate that is no number exactly if the ribbon is
  too wide.
* `Ribbon.Plan.colorDelta_spec` — what the check says about the colour delta.
* `Ribbon.Plan.colorIndex_on_cycle` — the colour index at every step of a walk.
-/

set_option relaxedAutoImplicit false
set_option autoImplicit false

namespace Ribbon

/-! ## Coordinates that are no numbers

The positions of the turtle are sums, and every summand behind the first is finite, so they are
numbers, even where they run off to infinity. The offset to the sides of the ribbon is a product: if
the width of the ribbon is too large to be finite, its zero components are zero times an infinity, and
no vertex of the ribbon has two coordinates that are numbers.
-/

/-! ### Points of the plane -/

namespace Vec3

/-- Whether a coordinate in the plane is no number. -/
def isNowhere (v : Vec3) : Bool := v.x.isNaN || v.y.isNaN

/-- Whether the coordinates in the plane are finite. -/
def isFlat (v : Vec3) : Bool := v.x.isFinite && v.y.isFinite

variable {v w : Vec3}

/-- An offset of finite size leaves a point somewhere, or nowhere. -/
lemma isNowhere_add (h : w.isFlat = true) : (v + w).isNowhere = v.isNowhere := by
  rw [isFlat, Bool.and_eq_true] at h
  exact congrArg₂ _ (Binary32.isNaN_add h.1) (Binary32.isNaN_add h.2)

/-- An offset of finite size, taken away, leaves a point somewhere, or nowhere. -/
lemma isNowhere_sub (h : w.isFlat = true) : (v - w).isNowhere = v.isNowhere := by
  rw [isFlat, Bool.and_eq_true] at h
  exact congrArg₂ _ (Binary32.isNaN_sub h.1) (Binary32.isNaN_sub h.2)

/-- With an offset that is nowhere, every point is. -/
lemma isNowhere_add_of_isNowhere (h : w.isNowhere = true) : (v + w).isNowhere = true := by
  rw [isNowhere, Bool.or_eq_true] at h ⊢
  exact h.imp Binary32.isNaN_add_of_isNaN Binary32.isNaN_add_of_isNaN

/-- Without an offset that is nowhere, every point is. -/
lemma isNowhere_sub_of_isNowhere (h : w.isNowhere = true) : (v - w).isNowhere = true := by
  rw [isNowhere, Bool.or_eq_true] at h ⊢
  exact h.imp Binary32.isNaN_sub_of_isNaN Binary32.isNaN_sub_of_isNaN

end Vec3

namespace Heading

variable {x : Float32} (h : Heading)

/-- A step of finite length is finite. -/
lemma isFlat_direction_scale (hx : x.isFinite = true) : (h.direction.scale x).isFlat = true := by
  have hzero := Binary32.isFinite_zero_mul hx
  have hone := Binary32.isFinite_unit_mul Binary32.decode_one hx
  have hminus := Binary32.isFinite_unit_mul Binary32.decode_neg_one hx
  fin_cases h <;> simp [direction, Vec3.scale, Vec3.isFlat, *]

/-- An offset of finite length is finite. -/
lemma isFlat_perpendicular_scale (hx : x.isFinite = true) :
    (h.perpendicular.scale x).isFlat = true := by
  have hzero := Binary32.isFinite_zero_mul hx
  have hone := Binary32.isFinite_unit_mul Binary32.decode_one hx
  have hminus := Binary32.isFinite_unit_mul Binary32.decode_neg_one hx
  fin_cases h <;> simp [perpendicular, Vec3.scale, Vec3.isFlat, *]

/-- An offset of infinite length is nowhere: one of its components is zero. -/
lemma isNowhere_perpendicular_scale (hx : x.isFinite = false) :
    (h.perpendicular.scale x).isNowhere = true := by
  have hzero : (0 * x).isNaN = true := by rw [Binary32.isNaN_zero_mul, hx, Bool.not_false]
  rw [Vec3.isNowhere, Bool.or_eq_true]
  fin_cases h
  exacts [.inr hzero, .inl hzero, .inr hzero, .inl hzero]

variable {v : Vec3} (hv : v.isNowhere = false)

include hv

/-- To the first side of a point that is somewhere there is one exactly at a finite distance. -/
lemma isNowhere_add_side : (v + h.perpendicular.scale x).isNowhere = !x.isFinite := by
  cases hx : x.isFinite with
  | false => exact Vec3.isNowhere_add_of_isNowhere (h.isNowhere_perpendicular_scale hx)
  | true => rw [Vec3.isNowhere_add (h.isFlat_perpendicular_scale hx), hv, Bool.not_true]

/-- To the second side of a point that is somewhere there is one exactly at a finite distance. -/
lemma isNowhere_sub_side : (v - h.perpendicular.scale x).isNowhere = !x.isFinite := by
  cases hx : x.isFinite with
  | false => exact Vec3.isNowhere_sub_of_isNowhere (h.isNowhere_perpendicular_scale hx)
  | true => rw [Vec3.isNowhere_sub (h.isFlat_perpendicular_scale hx), hv, Bool.not_true]

end Heading

/-- Stretching the unit square keeps a point somewhere, or nowhere. -/
lemma Stroke.exists_isNaN_clip (v : Vec3) :
    (∃ x ∈ (clip v).toList, x.isNaN = true) ↔ v.isNowhere = true := by
  have hone : Float32.isFinite 1 = true := by rfl
  have hzero : Float32.isNaN 0 = false := by rfl
  simp only [toList_clip, Vec3.isNowhere, List.mem_cons, List.not_mem_nil, or_false,
    exists_eq_or_imp, ↓existsAndEq, Binary32.isNaN_sub hone, Binary32.isNaN_mul_two, hzero,
    Bool.false_eq_true, and_false, Bool.or_eq_true]

/-! ### Along a path -/

section

variable {c : Config} (hstep : c.step.isFinite = true) (horigin : c.origin.isFinite = true)
  (s : Sequence)

include hstep horigin in
/-- **The turtle is always somewhere.**

**Proof sketch.** It starts at a sum of finite numbers, which may be infinite, and every step adds
finite numbers to it. -/
theorem Turtle.isNowhere_positionAfter : (positionAfter c s).isNowhere = false := by
  have hrun (leads : List Sequence) (v : Vec3) :
      (leads.foldl (fun p u => p + u.heading.direction.scale c.step) v).isNowhere =
        v.isNowhere := by
    induction leads generalizing v with
    | nil => rfl
    | cons u leads ih =>
      rw [List.foldl_cons, ih, Vec3.isNowhere_add (u.heading.isFlat_direction_scale hstep)]
  have hhalf : (c.step / 2).isFinite = true := by rw [Binary32.isFinite_div_two, hstep]
  rw [Vec2.isFinite, Bool.and_eq_true] at horigin
  rw [positionAfter, hrun, Vec3.isNowhere, Binary32.isNaN_sub hhalf, Binary32.isNaN_add hhalf,
    Binary32.isNaN_of_isFinite horigin.1, Binary32.isNaN_of_isFinite horigin.2, Bool.or_false]

include hstep horigin in
/-- All vertices of a stroke are nowhere if the ribbon is too wide to be finite, and otherwise none
is. -/
theorem Stroke.exists_isNaN_outline {v : Vec3} (h : v ∈ (after c s).outline) :
    (∃ x ∈ v.toList, x.isNaN = true) ↔ (c.step * c.thickness).isFinite = false := by
  have hstart := Turtle.isNowhere_positionAfter hstep horigin s
  have hfinish := Vec3.isNowhere_add (v := Turtle.positionAfter c s)
    (s.heading.isFlat_direction_scale hstep)
  rw [hstart] at hfinish
  rw [← Bool.not_eq_true', ← Binary32.isFinite_div_two]
  simp only [outline, List.mem_cons, List.not_mem_nil, or_false] at h
  rcases h with rfl | rfl | rfl | rfl
  · rw [exists_isNaN_clip, after, s.heading.isNowhere_add_side hstart]
  · rw [exists_isNaN_clip, after, s.heading.isNowhere_sub_side hstart]
  · rw [exists_isNaN_clip, after, s.heading.isNowhere_add_side hfinish]
  · rw [exists_isNaN_clip, after, s.heading.isNowhere_sub_side hfinish]

end

/-! ### The vertices of a plan -/

namespace Plan

/-- **Where a mesh has no coordinates.** A vertex that a plan draws has a coordinate that is no number
if and only if the width of the ribbon, the product of step and thickness, is not finite. -/
theorem draw_isNaN_iff (p : Plan) {s : Sequence} {m : Mesh} (h : p.draw s = .ok m) {v : Vec3}
    (hv : v ∈ m.positions) :
    (∃ x ∈ v.toList, x.isNaN = true) ↔
      (p.config.step * p.config.thickness).isFinite = false := by
  obtain ⟨⟨hstep, -⟩, -, -, horigin⟩ := Config.check_eq_ok_iff.1 p.valid
  obtain rfl := p.eq_ofPath_of_draw h
  rw [Mesh.positions_ofPath_trace] at hv
  obtain ⟨u, -, hu⟩ := List.mem_flatMap.1 hv
  exact Stroke.exists_isNaN_outline hstep horigin u hu

/-- A plan that is accepted although the product of its step and its thickness, about `10 ^ 30` each,
is infinite. -/
def overwide : Plan where
  config := { Config.standard with step := .ofBits 0x7149f2ca, thickness := .ofBits 0x7149f2ca }
  seed := [.turnRight, .forwardB]
  valid := by decide +kernel
  spelled := by decide +kernel

/-- The stroke of a ribbon that is too wide is drawn, with four vertices that are nowhere. -/
theorem draw_isNaN_iff_overwide :
    ∃ m, overwide.draw [.forwardA] = .ok m ∧ m.vertexCount = 4 ∧
      ∀ v ∈ m.positions, ∃ x ∈ v.toList, x.isNaN = true := by
  have hdraw := overwide.draw_eq_ok (s := [.forwardA]) (by decide)
  exact ⟨_, hdraw, Mesh.vertexCount_ofPath _ _ _,
    fun v hv => (draw_isNaN_iff overwide hdraw hv).2 (by decide +kernel)⟩

end Plan

/-! ## The colour index stays on the cycle

The turtle starts with the colour index zero, and every turn moves the index ahead by the colour delta
of the configuration, which has been checked to be finite and not negative. So wherever the turtle is on
its way, its colour index lies on the cycle of colours.
-/

section

open Binary32 (value)

namespace Plan

/-- The colour delta of a plan is finite and not negative. It may be negative zero. -/
theorem colorDelta_spec (p : Plan) :
    p.config.colorDelta.isFinite = true ∧ 0 ≤ value p.config.colorDelta := by
  obtain ⟨-, -, ⟨hfinite, hnonneg⟩, -⟩ := Config.check_eq_ok_iff.1 p.valid
  rw [Binary32.lt_iff hfinite (by rfl), Binary32.value_zero, not_lt] at hnonneg
  exact ⟨hfinite, hnonneg⟩

/-- The colour index after any sequence lies on the cycle. -/
lemma onCycle_colorIndexAfter (p : Plan) (h : p.config.palette.size ≤ 2 ^ 24) (s : Sequence) :
    p.config.palette.OnCycle (Turtle.colorIndexAfter p.config s) := by
  obtain ⟨hfinite, hnonneg⟩ := p.colorDelta_spec
  exact (Palette.onCycle_zero _).iterate_shift h hfinite hnonneg s.turns

/-- **The colour index stays on the cycle.** Whatever sequence a plan draws, at every step of the walk
the colour index of the turtle is finite, not negative and less than the number of stops, as a number
and in single precision. -/
theorem colorIndex_on_cycle (p : Plan) (h : p.config.palette.size ≤ 2 ^ 24) (s : Sequence) (k : ℕ) :
    let i := (p.trace (s.take k)).turtle.colorIndex
    i.isFinite = true ∧ (0 ≤ value i ∧ value i < p.config.palette.size) ∧
      0 ≤ i ∧ i < p.config.palette.period := by
  have hcycle := p.onCycle_colorIndexAfter h (s.take k)
  rw [trace, Path.trace_eq_after]
  exact ⟨hcycle.isFinite, ⟨hcycle.nonneg, hcycle.lt_size⟩, ((Palette.onCycle_iff h).1 hcycle).2⟩

/-- A plan with a colour delta just below the greatest number. -/
def striding : Plan where
  config := { Config.standard with colorDelta := .ofBits 0x7f7ffffe }
  seed := [.turnRight, .forwardB]
  valid := by decide +kernel
  spelled := by decide +kernel

/-- The first turn takes the colour index to 2, and the second one adds 2 to so large a number that
the sum is rounded to it again. -/
theorem colorIndex_on_cycle_striding :
    striding.config.palette.size ≤ 2 ^ 24 ∧
      (striding.trace [.turnLeft, .forwardA, .turnLeft]).turtle.colorIndex = 2 ∧
      (0 : Float32) ≤ 2 ∧ (2 : Float32) < striding.config.palette.period := by
  have hsize : striding.config.palette.size ≤ 2 ^ 24 := by decide
  have hindex : (striding.trace [.turnLeft, .forwardA, .turnLeft]).turtle.colorIndex = 2 := by
    decide +kernel
  obtain ⟨-, -, hrange⟩ := colorIndex_on_cycle striding hsize [.turnLeft, .forwardA, .turnLeft] 3
  rw [List.take_of_length_le (by decide), hindex] at hrange
  exact ⟨hsize, hindex, hrange⟩

end Plan

end

end Ribbon
