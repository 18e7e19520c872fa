import Mathlib.Data.List.Induction
import Mathlib.Logic.Function.Iterate
import Ribbon.Path
import Ribbon.Proofs.Sequence.Leads

/-!
# The path of a sequence, stroke by stroke

The turtle carries its position, its heading, its colour index and the pending joints along while it
follows a sequence. What it draws can be said without it: every stroke is determined by its lead, and
so is the state of the turtle by the sequence behind it.

## Main definitions

* `Ribbon.Turtle.positionAfter`, `Ribbon.Turtle.colorIndexAfter` — position and colour index after a
  sequence.
* `Ribbon.Stroke.after` — the stroke with a given lead.
* `Ribbon.Path.after` — the path of a sequence, put together from the leads.

## Main results

* `Ribbon.Path.follow_after` — one symbol leads from the path of a sequence to the path of the
  longer sequence.
* `Ribbon.Path.trace_eq_after` — the turtle draws the strokes that the leads determine.
-/

set_option relaxedAutoImplicit false
set_option autoImplicit false

namespace Ribbon

variable (c : Config) (s : Sequence)

namespace Turtle

/-- Where the turtle stands after a sequence: in the middle of the first cell, and from there one
step further for each stroke, along the heading of its lead. -/
def positionAfter : Vec3 :=
  s.leads.foldl (fun p u => p + u.heading.direction.scale c.step)
    ⟨c.origin.x - c.step / 2, c.origin.y + c.step / 2, 0⟩

/-- The colour index after a sequence: moved once from zero for each turn. -/
def colorIndexAfter : Float32 :=
  (fun i => c.palette.shift i c.colorDelta)^[s.turns] 0

/-- The turtle after a sequence. -/
def after : Turtle where
  position := positionAfter c s
  heading := s.heading
  colorIndex := colorIndexAfter c s

/-- The number of the heading after a sequence is a proper one. -/
lemma facing_after : (after c s).facing = s.heading :=
  Fin.ext (Nat.mod_eq_of_lt s.heading.isLt)

end Turtle

/-- The stroke whose lead is `s`. -/
def Stroke.after : Stroke where
  start := Turtle.positionAfter c s
  finish := Turtle.positionAfter c s + s.heading.direction.scale c.step
  side := s.heading.perpendicular.scale (c.step * c.thickness / 2)
  colorIndex := Turtle.colorIndexAfter c s
  joints := s.joints s.strokes

variable {c s} {a : Symbol}

/-! ## One more symbol -/

namespace Turtle

/-- A stroke takes the turtle one step along its heading. -/
lemma positionAfter_append_forward (h : a.isForward = true) :
    positionAfter c (s ++ [a]) = positionAfter c s + s.heading.direction.scale c.step := by
  rw [positionAfter, Sequence.leads_append_forward s h, List.foldl_append]
  rfl

/-- Turns leave the turtle where it is. -/
lemma positionAfter_append_turns {t : Sequence} (h : t.strokes = 0) :
    positionAfter c (s ++ t) = positionAfter c s := by
  rw [positionAfter, Sequence.leads_append_turns s h, positionAfter]

/-- A stroke leaves the colour index as it is. -/
lemma colorIndexAfter_append_forward (h : a.isForward = true) :
    colorIndexAfter c (s ++ [a]) = colorIndexAfter c s := by
  have ha : Sequence.turns [a] = 0 := by simp [Sequence.turns, h]
  rw [colorIndexAfter, Sequence.turns_append, ha, Nat.add_zero, colorIndexAfter]

/-- A turn moves the colour index once. -/
lemma colorIndexAfter_append_turn (h : a.isForward = false) :
    colorIndexAfter c (s ++ [a]) = c.palette.shift (colorIndexAfter c s) c.colorDelta := by
  have ha : Sequence.turns [a] = 1 := by simp [Sequence.turns, h]
  rw [colorIndexAfter, Sequence.turns_append, ha, Function.iterate_succ_apply', colorIndexAfter]

/-- A stroke advances the turtle. -/
lemma advance_after (h : a.isForward = true) :
    (after c s).advance c.step = after c (s ++ [a]) := by
  rw [advance, facing_after]
  simp only [after, positionAfter_append_forward h, Sequence.heading_append_forward s h,
    colorIndexAfter_append_forward h]
  rfl

/-- A turn gives the turtle a new heading and moves its colour index. -/
lemma after_append_turn (h : a.isForward = false) :
    after c (s ++ [a]) =
      { position := positionAfter c s
        heading := (s ++ [a]).heading
        colorIndex := c.palette.shift (colorIndexAfter c s) c.colorDelta } := by
  rw [after, positionAfter_append_turns (Sequence.strokes_turn h), colorIndexAfter_append_turn h]

end Turtle

/-- The stroke whose lead is `s`, seen from its end. -/
lemma Stroke.after_eq (h : a.isForward = true) :
    Stroke.after c s =
      { start := Turtle.positionAfter c s
        finish := Turtle.positionAfter c (s ++ [a])
        side := (s ++ [a]).heading.perpendicular.scale (Path.halfWidth c)
        colorIndex := Turtle.colorIndexAfter c (s ++ [a])
        joints := s.joints s.strokes } := by
  rw [Turtle.positionAfter_append_forward h, Sequence.heading_append_forward s h,
    Turtle.colorIndexAfter_append_forward h]
  rfl

namespace Path

variable (c s) in
/-- The path of a sequence, put together from the leads of its strokes. -/
def after : Path where
  turtle := Turtle.after c s
  strokes := (s.leads.map (Stroke.after c)).toArray
  pending := s.joints s.strokes

/-- A stroke extends the path by the stroke whose lead is the sequence so far. -/
lemma draw_after (h : a.isForward = true) : (after c s).draw c = after c (s ++ [a]) := by
  have hturtle : (after c s).turtle.advance c.step = Turtle.after c (s ++ [a]) :=
    Turtle.advance_after h
  rw [draw, hturtle, Turtle.facing_after]
  simp only [after, Sequence.leads_append_forward s h, List.map_append, List.map_singleton,
    Stroke.after_eq h, Sequence.joints_append_forward s h, List.push_toArray]
  rfl

/-- A turn leaves the strokes as they are and is one more joint, if there is a stroke to join. -/
lemma turn_after (h : a.isForward = false) {t : Turtle}
    (ht : t = { Turtle.after c s with heading := (s ++ [a]).heading }) :
    (after c s).turn c t = after c (s ++ [a]) := by
  have hempty : (s.leads.map (Stroke.after c)).toArray.isEmpty = decide (s.strokes = 0) := by
    rw [List.isEmpty_toArray, List.isEmpty_map, ← Sequence.length_leads]
    cases s.leads <;> simp
  subst ht
  simp only [turn, after, hempty, Sequence.leads_append_turn s h,
    Sequence.joints_append_turn s h, Turtle.after_append_turn h, decide_eq_true_eq]
  rfl

/-- **One more symbol** leads from the path of a sequence to the path of the longer sequence. -/
theorem follow_after (a : Symbol) : follow c (after c s) a = after c (s ++ [a]) := by
  cases a with
  | forwardA | forwardB => exact draw_after rfl
  | turnLeft =>
    refine turn_after rfl ?_
    rw [Sequence.heading_append_turnLeft]
    rfl
  | turnRight =>
    refine turn_after rfl ?_
    rw [Sequence.heading_append_turnRight]
    rfl

/-- **The turtle draws the strokes that the leads determine.**

**Proof sketch.** Induction from the end of the sequence, where the turtle has got to. The state
that it carries along is the invariant, and `follow_after` takes it one symbol further. -/
theorem trace_eq_after (c : Config) (s : Sequence) : trace c s = after c s := by
  induction s using List.reverseRecOn with
  | nil => rfl
  | append_singleton s a ih =>
    rw [trace_append, ih]
    exact follow_after a

/-- The strokes of a path, in order. -/
lemma toList_strokes_trace (c : Config) (s : Sequence) :
    (trace c s).strokes.toList = s.leads.map (Stroke.after c) := by
  rw [trace_eq_after, after]

/-- A path has the strokes of its sequence. -/
lemma size_strokes_trace (c : Config) (s : Sequence) : (trace c s).strokes.size = s.strokes := by
  rw [← Array.length_toList, toList_strokes_trace, List.length_map, Sequence.length_leads]

/-- The turtle at the end of a path has a proper heading. -/
lemma heading_trace_lt (c : Config) (s : Sequence) : (trace c s).turtle.heading < 4 := by
  rw [trace_eq_after]
  exact s.heading.isLt

/-- Before the first stroke nothing is to be joined. -/
lemma pending_trace_eq_zero (c : Config) {s : Sequence} (h : s.strokes = 0) :
    (trace c s).pending = 0 := by
  rw [trace_eq_after, after, h]
  rfl

end Path

end Ribbon
