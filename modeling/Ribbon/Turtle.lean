import Ribbon.Sequence
import Ribbon.Vector

/-!
# The turtle

The turtle stands in the unit square, faces one of four headings and carries an index into a
palette. Strokes move it ahead and turns change its heading.

## Main definitions

* `Ribbon.Heading` — up, right, down and left, numbered in this order.
* `Ribbon.Turtle` — position, heading and colour index.
* `Ribbon.Turtle.inCell` — the turtle in the middle of its first cell.
* `Ribbon.Turtle.direction?`, `Ribbon.Turtle.perpendicular?`, `Ribbon.Turtle.advance?` — what
  needs one of the four headings.
* `Ribbon.Turtle.move?`, `Ribbon.Turtle.walk` — one move, and the moves of a sequence.

## Design

A heading that comes from a document may be any number. `heading?` is the view that tells the
four proper ones from the rest. Turning always gives a proper heading. `advance`, the move that
drawing uses, reads the heading modulo four and so agrees with `advance?` wherever that succeeds.
-/

set_option relaxedAutoImplicit false
set_option autoImplicit false

namespace Ribbon

/-- One of the four headings: up, right, down, left. -/
abbrev Heading := Fin 4

namespace Heading

/-- The unit step of a heading. -/
def direction : Heading → Vec3
  | 0 => ⟨0, 1, 0⟩
  | 1 => ⟨1, 0, 0⟩
  | 2 => ⟨0, -1, 0⟩
  | 3 => ⟨-1, 0, 0⟩

/-- The unit offset to the first side of the ribbon; the second side is opposite. -/
def perpendicular : Heading → Vec3
  | 0 => ⟨1, 0, 0⟩
  | 1 => ⟨0, 1, 0⟩
  | 2 => ⟨-1, 0, 0⟩
  | 3 => ⟨0, -1, 0⟩

/-- The headings in the order of their numbers. -/
def all : List Heading := [0, 1, 2, 3]

/-- The heading with a number, counted around the four. -/
def ofNat (n : Nat) : Heading := ⟨n % 4, Nat.mod_lt n (by decide)⟩

/-- The heading after a turn to the next one. -/
def next (h : Heading) : Heading := ofNat (h.val + 1)

/-- The heading after a turn to the previous one. -/
def previous (h : Heading) : Heading := ofNat (h.val + 3)

end Heading

/-- What a symbol asks of the turtle. Both strokes are drawn alike. -/
inductive Move where
  /-- Go one step ahead. -/
  | forward
  /-- Turn to the next heading. -/
  | turnLeft
  /-- Turn to the previous heading. -/
  | turnRight
  deriving DecidableEq

/-- The move that a symbol stands for. -/
def Symbol.move : Symbol → Move
  | .forwardA | .forwardB => .forward
  | .turnLeft => .turnLeft
  | .turnRight => .turnRight

/-- The state of the turtle. -/
structure Turtle where
  /-- Where the turtle stands in the unit square. -/
  position : Vec3
  /-- The number of its heading. -/
  heading : Nat
  /-- Its place on the cycle of colours. -/
  colorIndex : Float32
  deriving DecidableEq

namespace Turtle

/-- The turtle at the corner of the unit square, facing up. -/
def home : Turtle := ⟨Vec3.zero, 0, 0⟩

/-- The turtle in the middle of the cell of width `step` whose lower right corner is `origin`. -/
def inCell (origin : Vec2) (step : Float32) : Turtle :=
  let half := step / 2
  ⟨⟨origin.x - half, origin.y + half, 0⟩, 0, 0⟩

/-- The heading, if its number is proper. -/
def heading? (t : Turtle) : Option Heading :=
  if h : t.heading < 4 then some ⟨t.heading, h⟩ else none

/-- The heading, with its number counted around the four. -/
def facing (t : Turtle) : Heading :=
  Heading.ofNat t.heading

/-- The unit step ahead, if the heading is proper. -/
def direction? (t : Turtle) : Option Vec3 :=
  t.heading?.map Heading.direction

/-- The unit offset to the first side, if the heading is proper. -/
def perpendicular? (t : Turtle) : Option Vec3 :=
  t.heading?.map Heading.perpendicular

/-- The turtle after a quarter turn to the next heading. -/
def turnLeft (t : Turtle) : Turtle :=
  { t with heading := (t.heading + 1) % 4 }

/-- The turtle after a quarter turn to the previous heading. -/
def turnRight (t : Turtle) : Turtle :=
  { t with heading := (t.heading + 3) % 4 }

/-- The turtle after a step of length `step` in a given direction. -/
def stepAlong (t : Turtle) (direction : Vec3) (step : Float32) : Turtle :=
  { t with position := t.position + direction.scale step }

/-- The turtle after a step ahead. -/
def advance (t : Turtle) (step : Float32) : Turtle :=
  t.stepAlong t.facing.direction step

/-- The turtle after a step ahead, if its heading is proper. -/
def advance? (t : Turtle) (step : Float32) : Option Turtle :=
  t.direction?.map fun d => t.stepAlong d step

/-- The turtle after a move, which is `step` long if it leads ahead. Only a step ahead needs a proper
heading. -/
def move? (t : Turtle) (step : Float32) : Move → Option Turtle
  | .forward => t.advance? step
  | .turnLeft => some t.turnLeft
  | .turnRight => some t.turnRight

/-- The turtle after the move of one symbol. -/
def follow? (t : Turtle) (step : Float32) (s : Symbol) : Option Turtle :=
  t.move? step s.move

/-- Where a walk ends. -/
structure Walk where
  /-- The turtle after the last symbol that could be followed. -/
  turtle : Turtle
  /-- Whether every symbol could be followed. -/
  complete : Bool

/-- The turtle follows a sequence until a symbol cannot be followed. -/
def walk (t : Turtle) (step : Float32) : Sequence → Walk
  | [] => ⟨t, true⟩
  | s :: rest =>
    match t.follow? step s with
    | some next => next.walk step rest
    | none => ⟨t, false⟩

/-- A step ahead is the same whether or not the heading is checked first. -/
theorem advance?_of_lt {t : Turtle} (h : t.heading < 4) (step : Float32) :
    t.advance? step = some (t.advance step) := by
  have hf : t.facing = ⟨t.heading, h⟩ := Fin.ext (Nat.mod_eq_of_lt h)
  simp [advance?, direction?, heading?, h, advance, hf]

/-- A turn to the next heading gives a proper one. -/
theorem heading_turnLeft_lt (t : Turtle) : t.turnLeft.heading < 4 :=
  Nat.mod_lt _ (by decide)

/-- A turn to the previous heading gives a proper one. -/
theorem heading_turnRight_lt (t : Turtle) : t.turnRight.heading < 4 :=
  Nat.mod_lt _ (by decide)

end Turtle

end Ribbon
