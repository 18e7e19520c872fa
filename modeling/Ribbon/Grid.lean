import Ribbon.Turtle

/-!
# The integer grid

The walk of a sequence with steps of length one between the points of the integer grid. Every stroke
runs along a side of two unit cells and owns the one on its left or on its right, according to its
kind.

## Main definitions

* `Ribbon.Heading.unit` — the unit step of a heading.
* `Ribbon.Grid.Walker` — a point and a heading on the grid, `Ribbon.Grid.Walker.follow` one symbol
  further.
* `Ribbon.Grid.points` — the points that a walk visits.
* `Ribbon.Grid.cells` — the cells that the strokes of a walk own.

## Main results

* `Ribbon.Heading.direction_eq` — the turtle steps along the same directions.
* `Ribbon.Grid.points_append`, `Ribbon.Grid.cells_append` — a walk goes on where its first part
  ends.
-/

set_option relaxedAutoImplicit false
set_option autoImplicit false

namespace Ribbon

/-- A point of the integer grid, a step between two points, or a cell by its lower left corner. -/
structure Grid.Point where
  x : Int
  y : Int
  deriving DecidableEq

namespace Heading

/-- The unit step of a heading. -/
def unit : Heading → Grid.Point
  | 0 => ⟨0, 1⟩
  | 1 => ⟨1, 0⟩
  | 2 => ⟨0, -1⟩
  | 3 => ⟨-1, 0⟩

/-- The turtle steps along the same directions. -/
theorem direction_eq (h : Heading) :
    h.direction = ⟨Binary32.ofInt h.unit.x, Binary32.ofInt h.unit.y, 0⟩ := by
  revert h
  decide +kernel

end Heading

namespace Grid

namespace Point

instance : Add Point := ⟨fun p q => ⟨p.x + q.x, p.y + q.y⟩⟩

/-- A step turned by a right angle so that an upward step points left. -/
def left (d : Point) : Point := ⟨-d.y, d.x⟩

/-- A step turned by a right angle so that an upward step points right. -/
def right (d : Point) : Point := ⟨d.y, -d.x⟩

/-- The unit cell with the corners `p`, `p + d`, `p + n` and `p + d + n`, for unit steps `d` and `n`
at a right angle. -/
def cell (p d n : Point) : Point :=
  ⟨min p.x (p + d + n).x, min p.y (p + d + n).y⟩

end Point

/-- A point of a walk and the heading there. -/
structure Walker where
  point : Point
  heading : Heading
  deriving DecidableEq

namespace Walker

/-- The walker after a step ahead. -/
def step (w : Walker) : Walker :=
  { w with point := w.point + w.heading.unit }

/-- The walker after one symbol. -/
def follow (w : Walker) (s : Symbol) : Walker :=
  match s.move with
  | .forward => w.step
  | .turnLeft => { w with heading := w.heading.next }
  | .turnRight => { w with heading := w.heading.previous }

/-- The walker after a sequence. -/
def walk (w : Walker) (s : Sequence) : Walker :=
  s.foldl follow w

/-- The cell that the next symbol owns, if it is a stroke. -/
def owned (w : Walker) : Symbol → List Point
  | .forwardA => [w.point.cell w.heading.unit w.heading.unit.left]
  | .forwardB => [w.point.cell w.heading.unit w.heading.unit.right]
  | .turnLeft | .turnRight => []

/-- The point that the next symbol leads to, if it is a stroke. -/
def visited (w : Walker) (s : Symbol) : List Point :=
  if s.isForward then [w.step.point] else []

end Walker

/-- The points that the strokes of a walk lead to. -/
def targets (w : Walker) : Sequence → List Point
  | [] => []
  | s :: rest => w.visited s ++ targets (w.follow s) rest

/-- The points that a walk visits, its start first. -/
def points (w : Walker) (s : Sequence) : List Point :=
  w.point :: targets w s

/-- The cells that the strokes of a walk own. -/
def cells (w : Walker) : Sequence → List Point
  | [] => []
  | s :: rest => w.owned s ++ cells (w.follow s) rest

/-- A walk goes on where its first part ends. -/
theorem targets_append (w : Walker) (s t : Sequence) :
    targets w (s ++ t) = targets w s ++ targets (w.walk s) t := by
  induction s generalizing w with
  | nil => rfl
  | cons a s ih => simp [targets, Walker.walk, ih]

/-- The points of a walk are those of its first part and those that the rest leads to. -/
theorem points_append (w : Walker) (s t : Sequence) :
    points w (s ++ t) = points w s ++ targets (w.walk s) t := by
  simp [points, targets_append]

/-- The cells of a walk are those of its parts. -/
theorem cells_append (w : Walker) (s t : Sequence) :
    cells w (s ++ t) = cells w s ++ cells (w.walk s) t := by
  induction s generalizing w with
  | nil => rfl
  | cons a s ih => simp [cells, Walker.walk, ih]

end Grid

end Ribbon
