import Mathlib.Algebra.Group.InjSurj
import Mathlib.Algebra.Group.Prod
import Mathlib.Algebra.Order.Group.Int
import Mathlib.Algebra.Order.Group.MinMax
import Mathlib.Algebra.Ring.Int.Defs
import Mathlib.Data.Int.Cast.Lemmas
import Ribbon.Grid
import Ribbon.Sequence.Census

/-!
# Walks on the grid

Walks on the grid that are moved elsewhere, and walks that grow.

## Main definitions

* `Ribbon.Grid.Walker.translate`, `Ribbon.Grid.Walker.scale` — a walker elsewhere on the grid.
* `Ribbon.Grid.trail` — the walker before each symbol of a walk.

## Main results

* `Ribbon.Grid.Walker.walk_translate`, `Ribbon.Grid.points_translate`, `Ribbon.Grid.cells_translate` —
  where a moved walk leads, and what it visits and owns.
* `Ribbon.Grid.length_points` — a walk visits one point for every stroke, beside its start.
* `Ribbon.Grid.targets_eq_flatMap`, `Ribbon.Grid.cells_eq_flatMap` — what a walk leads to and owns,
  collected from its trail.
* `Ribbon.Grid.Walker.walk_production` — a production leads where its symbol led.
* `Ribbon.Grid.Walker.walk_grow`, `Ribbon.Grid.Walker.walk_grown` — a grown sequence leads where the
  sequence led.
* `Ribbon.Grid.trail_grow` — the trail of a grown sequence, production by production.
* `Ribbon.Grid.Walker.heading_displacement_grown` — heading and displacement after any number of
  generations.

## Design

Scaling a walker does not scale its steps. It is the change of coordinates when the grid is refined: the
walker stands at the same place of the plane, and its unit step has become shorter.
-/

set_option relaxedAutoImplicit false
set_option autoImplicit false

namespace Ribbon.Grid

/-! ## Walks on the grid, moved and taken apart

Points and steps of the grid form a commutative group. A walk that begins somewhere else with the same
heading is the same walk moved, and so are its points and its cells. What a walk visits and owns is
collected from its trail, the walker before each symbol.
-/

section

/-! ### The group of steps -/

namespace Point

attribute [ext] Point

instance : Zero Point := ⟨⟨0, 0⟩⟩

instance : Neg Point := ⟨fun p => ⟨-p.x, -p.y⟩⟩

instance : Sub Point := ⟨fun p q => ⟨p.x - q.x, p.y - q.y⟩⟩

instance : SMul Nat Point := ⟨fun n p => ⟨n * p.x, n * p.y⟩⟩

instance : SMul Int Point := ⟨fun k p => ⟨k * p.x, k * p.y⟩⟩

/-- A point is given by its coordinates. -/
lemma coordinates_injective : Function.Injective fun p : Point => (p.x, p.y) := by
  rintro ⟨x, y⟩ ⟨x', y'⟩ h
  simpa using h

instance : AddCommGroup Point :=
  coordinates_injective.addCommGroup _ rfl (fun _ _ => rfl) (fun _ => rfl) (fun _ _ => rfl)
    (fun _ n => Prod.ext (nsmul_eq_mul n _).symm (nsmul_eq_mul n _).symm)
    (fun _ k => Prod.ext (zsmul_eq_mul _ k).symm (zsmul_eq_mul _ k).symm)

variable (p q : Point) (k : Int)

/-- The origin has the first coordinate zero. -/
@[simp]
lemma x_zero : (0 : Point).x = 0 := rfl

/-- The origin has the second coordinate zero. -/
@[simp]
lemma y_zero : (0 : Point).y = 0 := rfl

/-- First coordinates are added. -/
@[simp]
lemma x_add : (p + q).x = p.x + q.x := rfl

/-- Second coordinates are added. -/
@[simp]
lemma y_add : (p + q).y = p.y + q.y := rfl

/-- First coordinates are scaled. -/
@[simp]
lemma x_smul : (k • p).x = k * p.x := rfl

/-- Second coordinates are scaled. -/
@[simp]
lemma y_smul : (k • p).y = k * p.y := rfl

/-- The cell beside a moved step is the moved cell. -/
lemma cell_add (d n : Point) : (p + q).cell d n = p + q.cell d n := by
  ext <;> simp [cell, add_assoc, min_add_add_left]

end Point

/-- A heading has a unit step, straight along one axis. -/
lemma unit_straight (h : Heading) :
    h.unit.x = 0 ∧ (h.unit.y = 1 ∨ h.unit.y = -1) ∨ h.unit.y = 0 ∧ (h.unit.x = 1 ∨ h.unit.x = -1) := by
  revert h
  decide

/-! ### Moved walkers -/

namespace Walker

/-- The walker moved by `v`. -/
def translate (v : Point) (w : Walker) : Walker := { w with point := v + w.point }

/-- The walker at the `k`-fold point. -/
def scale (k : Int) (w : Walker) : Walker := { w with point := k • w.point }

variable (v : Point) (k : Int) (w : Walker)

/-- Every walker is moved from the origin to its point. -/
lemma eq_translate_origin : w = translate w.point ⟨0, w.heading⟩ := by
  simp only [translate, add_zero]

/-- Scaling multiplies what a walker has been moved by. -/
lemma scale_translate : (w.translate v).scale k = (w.scale k).translate (k • v) := by
  simp only [scale, translate, zsmul_add]

/-- A walker at the origin stays there under scaling. -/
lemma scale_origin (h : Heading) : scale k ⟨0, h⟩ = ⟨0, h⟩ := by
  simp only [scale, zsmul_zero]

/-- Scaling twice is scaling by the product. -/
lemma scale_scale (l : Int) : (w.scale k).scale l = w.scale (l * k) := by
  simp only [scale, mul_zsmul]

/-- Refining the grid once more is refining it once before. -/
lemma scale_pow_succ (n : Nat) : w.scale (k ^ (n + 1)) = (w.scale k).scale (k ^ n) := by
  rw [scale_scale, pow_succ]

/-- A walk goes on from where its first symbol leads. -/
lemma walk_cons (a : Symbol) (s : Sequence) : w.walk (a :: s) = (w.follow a).walk s := rfl

/-- The walk of two sequences, one after the other. -/
lemma walk_append (s t : Sequence) : w.walk (s ++ t) = (w.walk s).walk t :=
  List.foldl_append

/-- A moved walker follows a symbol as the walker does. -/
lemma follow_translate (a : Symbol) : (w.translate v).follow a = (w.follow a).translate v := by
  cases a <;> simp [follow, Symbol.move, step, translate, add_assoc]

/-- A moved walker follows a sequence as the walker does. -/
theorem walk_translate (s : Sequence) : (w.translate v).walk s = (w.walk s).translate v := by
  induction s generalizing w with
  | nil => rfl
  | cons a s ih =>
    rw [walk, List.foldl_cons, follow_translate]
    exact ih (w.follow a)

/-- A moved walker visits the moved point. -/
lemma visited_translate (a : Symbol) :
    (w.translate v).visited a = (w.visited a).map (v + ·) := by
  cases a <;> simp [visited, Symbol.isForward, step, translate, add_assoc]

/-- A moved walker owns the moved cell. -/
lemma owned_translate (a : Symbol) : (w.translate v).owned a = (w.owned a).map (v + ·) := by
  cases a <;> simp [owned, translate, Point.cell_add]

end Walker

/-! ### Points, one by one -/

/-- A stroke leads to a point one step ahead, and the walk goes on from there. -/
lemma points_cons_forward (w : Walker) {a : Symbol} (s : Sequence) (h : a.isForward = true) :
    points w (a :: s) = w.point :: points w.step s := by
  cases a with
  | forwardA | forwardB => rfl
  | turnLeft | turnRight => cases h

/-- A turn leads to no other point. -/
lemma points_cons_turn (w : Walker) {a : Symbol} (s : Sequence) (h : a.isForward = false) :
    points w (a :: s) = points (w.follow a) s := by
  cases a with
  | forwardA | forwardB => cases h
  | turnLeft | turnRight => rfl

/-- A walk visits one point for every stroke, beside its start. -/
theorem length_points (w : Walker) (s : Sequence) : (points w s).length = s.strokes + 1 := by
  induction s generalizing w with
  | nil => rfl
  | cons a s ih =>
    by_cases ha : a.isForward = true
    · rw [points_cons_forward w s ha, List.length_cons, ih, Sequence.strokes_cons, if_pos ha]
    · have hturn : a.isForward = false := by simpa using ha
      rw [points_cons_turn w s hturn, ih, Sequence.strokes_cons, if_neg ha, Nat.add_zero]

/-! ### Trails -/

/-- The walker before each symbol of a walk, with that symbol. -/
def trail (w : Walker) : Sequence → List (Walker × Symbol)
  | [] => []
  | a :: s => (w, a) :: trail (w.follow a) s

variable (w : Walker) (s : Sequence)

/-- The trail goes on where the first part of a walk ends. -/
lemma trail_append (t : Sequence) : trail w (s ++ t) = trail w s ++ trail (w.walk s) t := by
  induction s generalizing w with
  | nil => rfl
  | cons a s ih =>
    rw [List.cons_append, trail, ih, trail]
    rfl

/-- What a walk leads to, collected from its trail. -/
theorem targets_eq_flatMap : targets w s = (trail w s).flatMap fun x => x.1.visited x.2 := by
  induction s generalizing w with
  | nil => rfl
  | cons a s ih => rw [targets, ih, trail, List.flatMap_cons]

/-- The cells of a walk, collected from its trail. -/
theorem cells_eq_flatMap : cells w s = (trail w s).flatMap fun x => x.1.owned x.2 := by
  induction s generalizing w with
  | nil => rfl
  | cons a s ih => rw [cells, ih, trail, List.flatMap_cons]

variable (v : Point)

/-- The trail of a moved walker. -/
lemma trail_translate :
    trail (w.translate v) s = (trail w s).map fun x => (x.1.translate v, x.2) := by
  induction s generalizing w with
  | nil => rfl
  | cons a s ih => rw [trail, Walker.follow_translate, ih, trail, List.map_cons]

/-- A moved walker is led to the moved points. -/
lemma targets_translate : targets (w.translate v) s = (targets w s).map (v + ·) := by
  simp only [targets_eq_flatMap, trail_translate, List.flatMap_map, List.map_flatMap,
    Walker.visited_translate]

/-- A moved walker visits the moved points. -/
theorem points_translate : points (w.translate v) s = (points w s).map (v + ·) := by
  rw [points, targets_translate, points, List.map_cons]
  rfl

/-- A moved walker owns the moved cells. -/
theorem cells_translate : cells (w.translate v) s = (cells w s).map (v + ·) := by
  simp only [cells_eq_flatMap, trail_translate, List.flatMap_map, List.map_flatMap,
    Walker.owned_translate]

end

/-! ## Growing walks

From one generation to the next the grid is refined five times. Every stroke grows into a walk from the
fivefold start of the stroke to its fivefold end, which leaves the heading as it was, so a grown walk
ends where the walk ended.
-/

namespace Walker

/-! ### Where a grown walk leads -/

/-- From the origin, with any heading, a production leads five times as far as its symbol. -/
lemma walk_production_origin (a : Symbol) (h : Heading) :
    walk ⟨0, h⟩ a.production = (follow ⟨0, h⟩ a).scale 5 := by
  revert h
  cases a <;> decide +kernel

/-- **A production leads where its symbol led**, on the refined grid. -/
theorem walk_production (w : Walker) (a : Symbol) :
    (w.scale 5).walk a.production = (w.follow a).scale 5 := by
  rw [w.eq_translate_origin, scale_translate, scale_origin, walk_translate, walk_production_origin,
    follow_translate, scale_translate]

/-- A grown sequence leads where the sequence led, on the refined grid. -/
theorem walk_grow (w : Walker) (s : Sequence) :
    (w.scale 5).walk (Sequence.grow s) = (w.walk s).scale 5 := by
  induction s generalizing w with
  | nil => rfl
  | cons a s ih =>
    rw [Sequence.grow_cons, walk_append, walk_production, ih]
    rfl

/-- Every generation leads where the sequence led, on a grid that is refined as often. -/
theorem walk_grown (w : Walker) (s : Sequence) (generations : Nat) :
    (w.scale (5 ^ generations)).walk (s.grown generations) =
      (w.walk s).scale (5 ^ generations) := by
  induction generations generalizing w s with
  | zero => simp [scale]
  | succ g ih =>
    rw [scale_pow_succ, Sequence.grown_succ, ih, walk_grow, scale_pow_succ]

end Walker

/-! ### What a grown walk passes -/

/-- The trail of a grown sequence, production by production. -/
theorem trail_grow (w : Walker) (s : Sequence) :
    trail (w.scale 5) (Sequence.grow s) =
      (trail w s).flatMap fun x => trail (x.1.scale 5) x.2.production := by
  induction s generalizing w with
  | nil => rfl
  | cons a s ih =>
    rw [Sequence.grow_cons, trail_append, Walker.walk_production, ih, trail, List.flatMap_cons]

/-- What a grown sequence leads to, production by production. -/
lemma targets_grow (w : Walker) (s : Sequence) :
    targets (w.scale 5) (Sequence.grow s) =
      (trail w s).flatMap fun x => targets (x.1.scale 5) x.2.production := by
  simp only [targets_eq_flatMap, trail_grow, List.flatMap_assoc]

/-- The cells of a grown sequence, production by production. -/
lemma cells_grow (w : Walker) (s : Sequence) :
    cells (w.scale 5) (Sequence.grow s) =
      (trail w s).flatMap fun x => cells (x.1.scale 5) x.2.production := by
  simp only [cells_eq_flatMap, trail_grow, List.flatMap_assoc]

namespace Walker

/-- **Generations keep the heading and stretch the displacement.** From any point and with any heading,
the walk of a grown sequence ends with the heading of the walk of the sequence, and its displacement is
that of the sequence, five times as long for each generation.

**Proof sketch.** A walker at the origin stays there when the grid is refined, so `walk_grown` gives the
end of the grown walk. Any other walker is moved from the origin, which changes neither the heading nor
the displacement. -/
theorem heading_displacement_grown (w : Walker) (s : Sequence) (generations : Nat) :
    (w.walk (s.grown generations)).heading = (w.walk s).heading ∧
      (w.walk (s.grown generations)).point - w.point =
        (5 : Int) ^ generations • ((w.walk s).point - w.point) := by
  have hgrown := walk_grown ⟨0, w.heading⟩ s generations
  rw [scale_origin] at hgrown
  rw [w.eq_translate_origin, walk_translate, walk_translate, hgrown]
  refine ⟨rfl, ?_⟩
  simp only [translate, scale, add_zero, add_sub_cancel_left]

end Walker

end Ribbon.Grid
