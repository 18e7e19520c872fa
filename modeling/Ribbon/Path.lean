import Ribbon.Config
import Ribbon.Turtle

/-!
# Paths

The turtle follows a sequence and leaves a path behind. A path is a list of strokes, each with
the number of turns since the stroke before it; these are the joints that close the outer side of
the bend. Turns before the first stroke make no joint, since there is nothing to join, and turns
after the last one wait for a stroke that never comes.

## Main definitions

* `Ribbon.Stroke` — a straight piece of the path.
* `Ribbon.Path` — the strokes so far and the turtle at their end.
* `Ribbon.Path.follow` — the path after one more symbol.
* `Ribbon.Path.trace` — the path of a sequence.

## Main results

* `Ribbon.Path.trace_append` — a longer sequence continues the path of its beginning.
-/

set_option relaxedAutoImplicit false
set_option autoImplicit false

namespace Ribbon

/-- A straight piece of a path. -/
structure Stroke where
  /-- Where it begins. -/
  start : Vec3
  /-- Where it ends. -/
  finish : Vec3
  /-- The offset from its middle line to its first side. -/
  side : Vec3
  /-- The place of its colour on the palette. -/
  colorIndex : Float32
  /-- The number of turns since the stroke before it. -/
  joints : Nat

/-- The strokes behind a turtle. -/
structure Path where
  /-- The turtle at the end of the path. -/
  turtle : Turtle
  /-- The strokes in the order they were drawn. -/
  strokes : Array Stroke
  /-- The number of turns since the last stroke, if there is one. -/
  pending : Nat

namespace Path

/-- The path before the first symbol. -/
def start (c : Config) : Path where
  turtle := Turtle.inCell c.origin c.step
  strokes := #[]
  pending := 0

/-- Half the width of the ribbon. -/
def halfWidth (c : Config) : Float32 := c.step * c.thickness / 2

/-- The path after a stroke. -/
def draw (c : Config) (p : Path) : Path :=
  let next := p.turtle.advance c.step
  let stroke : Stroke :=
    { start := p.turtle.position
      finish := next.position
      side := next.facing.perpendicular.scale (halfWidth c)
      colorIndex := next.colorIndex
      joints := p.pending }
  { turtle := next, strokes := p.strokes.push stroke, pending := 0 }

/-- The path after a turn that leaves the turtle as `t`, with its colour index still to be moved. -/
def turn (c : Config) (p : Path) (t : Turtle) : Path :=
  { turtle := { t with colorIndex := c.palette.shift t.colorIndex c.colorDelta }
    strokes := p.strokes
    pending := if p.strokes.isEmpty then 0 else p.pending + 1 }

/-- The path after one more symbol. -/
def follow (c : Config) (p : Path) (s : Symbol) : Path :=
  match s.move with
  | .forward => p.draw c
  | .turnLeft => p.turn c p.turtle.turnLeft
  | .turnRight => p.turn c p.turtle.turnRight

/-- The path of a sequence. -/
def trace (c : Config) (s : Sequence) : Path :=
  s.foldl (follow c) (start c)

/-- A longer sequence continues the path of its beginning. -/
theorem trace_append (c : Config) (s t : Sequence) :
    trace c (s ++ t) = t.foldl (follow c) (trace c s) :=
  List.foldl_append

end Path

end Ribbon
