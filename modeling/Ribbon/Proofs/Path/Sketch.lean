import Ribbon.Proofs.Path.Trace

/-!
# Symbols that a path does not show

A path shows where its strokes lie, how they are joined and which colours they have. Three changes
to a sequence leave some or all of that as it is: the two strokes are drawn alike; turns at the end
wait for a stroke that never comes; and turns at the beginning join nothing, so that whole turns
there only move the colours on.

## Main definitions

* `Ribbon.Path.sketch` — a path with its colours left out.
* `Ribbon.Sequence.exchangeAt` — a sequence with some of its strokes exchanged for the other stroke.

## Main results

* `Ribbon.Path.sketch_follow`, `Ribbon.Path.sketch_foldl_congr` — what one symbol, and any number of
  them, add to a sketch can be told from the sketch.
* `Ribbon.Path.sketch_trace_append` — whole turns at the beginning leave the sketch as it is.
* `Ribbon.Path.strokes_trace_append` — turns at the end leave the strokes as they are.
* `Ribbon.Path.trace_exchangeAt` — exchanged strokes leave the path as it is.
-/

set_option relaxedAutoImplicit false
set_option autoImplicit false

namespace Ribbon

variable (c : Config)

/-! ## Sketches -/

/-- A stroke with its colour left out. -/
def Stroke.sketch (s : Stroke) : Stroke :=
  { s with colorIndex := 0 }

/-- A turtle with its colour left out. -/
def Turtle.sketch (t : Turtle) : Turtle :=
  { t with colorIndex := 0 }

/-- There is no colour left to be left out once more. -/
lemma Stroke.sketch_comp_sketch : Stroke.sketch ∘ Stroke.sketch = Stroke.sketch := rfl

namespace Path

/-- A path with its colours left out. -/
def sketch (p : Path) : Path where
  turtle := p.turtle.sketch
  strokes := p.strokes.map Stroke.sketch
  pending := p.pending

/-- The sketch of the next stroke. -/
lemma sketch_draw (p : Path) : (p.draw c).sketch = (p.sketch.draw c).sketch := by
  simp only [sketch, draw, Array.map_push, Array.map_map, Stroke.sketch_comp_sketch]
  rfl

/-- The sketch of the next turn. -/
lemma sketch_turn (p : Path) (t : Turtle) :
    (p.turn c t).sketch = (p.sketch.turn c t.sketch).sketch := by
  have hempty : (p.strokes.map Stroke.sketch).isEmpty = p.strokes.isEmpty := by
    rw [Array.isEmpty, Array.size_map, Array.isEmpty]
  simp only [sketch, Turtle.sketch, turn, Array.map_map, Stroke.sketch_comp_sketch, hempty]

/-- **What one symbol adds to a sketch** can be told from the sketch: neither the position nor the
heading nor the joints of the next stroke depend on colours. -/
theorem sketch_follow (p : Path) (a : Symbol) :
    (p.follow c a).sketch = (p.sketch.follow c a).sketch := by
  cases a with
  | forwardA | forwardB => exact sketch_draw c p
  | turnLeft => exact sketch_turn c p p.turtle.turnLeft
  | turnRight => exact sketch_turn c p p.turtle.turnRight

/-- Paths with the same sketch keep having the same sketch when they go on in the same way. -/
theorem sketch_foldl_congr {p q : Path} (h : p.sketch = q.sketch) (s : Sequence) :
    (s.foldl (follow c) p).sketch = (s.foldl (follow c) q).sketch := by
  induction s generalizing p q with
  | nil => exact h
  | cons a s ih =>
    apply ih
    rw [sketch_follow, h, ← sketch_follow]

variable (s : Sequence) {t : Sequence}

/-! ## Turns at the beginning -/

/-- Whole turns before the first stroke leave the turtle as it started, apart from its colour.

**Proof sketch.** There is no stroke yet that could be joined, so apart from the colour turns change
nothing but the heading, which whole turns restore. -/
lemma sketch_trace_turns (hturns : t.strokes = 0) (hwhole : t.rotation % 4 = 0) :
    (trace c t).sketch = (start c).sketch := by
  -- the start is the path after no symbols, with which `t` is compared in every field
  have hposition : Turtle.positionAfter c t = Turtle.positionAfter c [] :=
    Turtle.positionAfter_append_turns (s := []) hturns
  have hheading : t.heading = Sequence.heading [] := Sequence.heading_append_of_rotation [] hwhole
  have hleads : t.leads = [] := Sequence.leads_append_turns [] hturns
  rw [trace_eq_after]
  simp only [sketch, after, Turtle.sketch, Turtle.after, hposition, hheading, hleads, hturns]
  rfl

/-- **Whole turns at the beginning leave the sketch as it is.** -/
theorem sketch_trace_append (hturns : t.strokes = 0) (hwhole : t.rotation % 4 = 0) :
    (trace c (t ++ s)).sketch = (trace c s).sketch := by
  rw [trace_append]
  exact sketch_foldl_congr c (sketch_trace_turns c hturns hwhole) s

/-! ## Turns at the end -/

/-- **Turns at the end leave the strokes as they are.** -/
theorem strokes_trace_append (hturns : t.strokes = 0) :
    (trace c (s ++ t)).strokes = (trace c s).strokes := by
  rw [trace_eq_after, trace_eq_after, after, after, Sequence.leads_append_turns s hturns]

end Path

/-! ## Exchanged strokes -/

/-- The other stroke in place of a stroke, and a turn as it is. -/
def Symbol.exchange : Symbol → Symbol
  | forwardA => forwardB
  | forwardB => forwardA
  | turnLeft => turnLeft
  | turnRight => turnRight

/-- Exchanged strokes are the same moves. -/
lemma Symbol.move_exchange (a : Symbol) : a.exchange.move = a.move := by
  cases a <;> rfl

namespace Sequence

/-- The sequence with the strokes at the chosen positions exchanged. -/
def exchangeAt (s : Sequence) (chosen : Nat → Bool) : Sequence :=
  s.mapIdx fun i a => if chosen i then a.exchange else a

/-- Wherever strokes are exchanged, the moves stay the same. -/
lemma map_move_exchangeAt (s : Sequence) (chosen : Nat → Bool) :
    (s.exchangeAt chosen).map Symbol.move = s.map Symbol.move := by
  apply List.ext_getElem
  · rw [List.length_map, List.length_map, exchangeAt, List.length_mapIdx]
  · intro i hi hi'
    simp only [List.getElem_map, exchangeAt, List.getElem_mapIdx]
    split
    · exact Symbol.move_exchange _
    · rfl

/-- The strokes of a sequence can be counted by its moves. -/
lemma strokes_eq_countP_moves (s : Sequence) :
    s.strokes = (s.map Symbol.move).countP (· = .forward) := by
  rw [strokes, List.countP_map]
  congr 1
  funext a
  cases a <;> rfl

/-- Exchanging strokes does not change their number. -/
lemma strokes_exchangeAt (s : Sequence) (chosen : Nat → Bool) :
    (s.exchangeAt chosen).strokes = s.strokes := by
  rw [strokes_eq_countP_moves, map_move_exchangeAt, ← strokes_eq_countP_moves]

end Sequence

namespace Path

/-- The path after one more move. -/
def afterMove (p : Path) : Move → Path
  | .forward => p.draw c
  | .turnLeft => p.turn c p.turtle.turnLeft
  | .turnRight => p.turn c p.turtle.turnRight

/-- A path is made of the moves of its sequence. -/
lemma trace_eq_foldl_moves (s : Sequence) :
    trace c s = (s.map Symbol.move).foldl (afterMove c) (start c) := by
  rw [List.foldl_map]
  rfl

/-- **Exchanged strokes leave the path as it is.** -/
theorem trace_exchangeAt (s : Sequence) (chosen : Nat → Bool) :
    trace c (s.exchangeAt chosen) = trace c s := by
  rw [trace_eq_foldl_moves, Sequence.map_move_exchangeAt, ← trace_eq_foldl_moves]

end Path

end Ribbon
