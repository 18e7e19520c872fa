import Mathlib.Algebra.Order.Ring.Int
import Mathlib.Data.List.Count
import Mathlib.Data.List.Perm.Basic
import Ribbon.Proofs.Grid.Motion
import Ribbon.Proofs.Sequence.Census

/-!
# Cells of grown walks

When the grid is refined five times, a cell falls into 25 cells. A production owns exactly the 25 parts
of the cell of its stroke, on the same side of the stroke. So the cells of a grown walk are the parts of
the cells of the walk, each as often as its whole.

## Main definitions

* `Ribbon.Grid.Point.spread` — offsets from the corner of a cell on the refined grid.
* `Ribbon.Grid.Point.subcells`, `Ribbon.Grid.Point.parent` — the parts of a cell, and the cell of which
  a cell is a part.
* `Ribbon.Grid.Point.IsCorner` — the corners of a cell.

## Main results

* `Ribbon.Grid.cells_grow_perm` — the cells of a grown walk.
* `Ribbon.Grid.count_cells_grown` — how often a walk of any generation owns a cell.
* `Ribbon.Grid.exists_cell_of_mem_targets` — a walk stays beside its cells.
* `Ribbon.Grid.growth_tiles_square` — the standard seed fills a square.
-/

set_option relaxedAutoImplicit false
set_option autoImplicit false

namespace Ribbon.Grid

/-! ## The parts of a cell -/

namespace Point

/-- The points, or cells, with the given offsets from the corner of a cell on the refined grid. -/
def spread (offsets : List Point) (c : Point) : List Point :=
  offsets.map ((5 : Int) • c + ·)

/-- The offsets of the 25 parts of a cell. -/
def block : List Point :=
  (List.range 5).flatMap fun (i : Nat) => (List.range 5).map fun (j : Nat) => ⟨i, j⟩

/-- The 25 parts of a cell, on the refined grid. -/
abbrev subcells : Point → List Point :=
  spread block

/-- The cell of which a cell of the refined grid is a part. -/
def parent (q : Point) : Point := ⟨q.x / 5, q.y / 5⟩

/-- Offsets from moved corners. -/
lemma flatMap_spread_map_add (offsets l : List Point) (v : Point) :
    (l.map (v + ·)).flatMap (spread offsets) =
      (l.flatMap (spread offsets)).map ((5 : Int) • v + ·) := by
  simp only [spread, List.flatMap_map, List.map_flatMap, List.map_map, Function.comp_def, zsmul_add,
    add_assoc]

/-- The parent of a cell of the refined grid, from any corner. -/
lemma parent_smul_add (c q : Point) : ((5 : Int) • c + q).parent = c + q.parent := by
  ext <;> simp only [parent, x_add, y_add, x_smul, y_smul] <;> omega

/-- The parts of the cell at the origin are the cells with that parent. -/
lemma mem_block {q : Point} : q ∈ block ↔ q.parent = 0 := by
  constructor
  · intro h
    simp only [block, List.mem_flatMap, List.mem_map, List.mem_range] at h
    obtain ⟨i, hi, j, hj, rfl⟩ := h
    ext <;> simp only [parent, x_zero, y_zero] <;> omega
  · intro h
    obtain ⟨hx, hy⟩ := Point.ext_iff.1 h
    simp only [parent, x_zero, y_zero] at hx hy
    simp only [block, List.mem_flatMap, List.mem_map, List.mem_range]
    exact ⟨q.x.toNat, by omega, q.y.toNat, by omega, by ext <;> simp <;> omega⟩

/-- A cell of the refined grid is among the parts of its parent only, and there once. -/
lemma count_subcells (c q : Point) : c.subcells.count q = if c = q.parent then 1 else 0 := by
  have hnodup : block.Nodup := by decide
  obtain ⟨r, rfl⟩ : ∃ r, q = (5 : Int) • c + r := ⟨q - (5 : Int) • c, (add_sub_cancel _ _).symm⟩
  rw [subcells, spread, List.count_map_of_injective _ _ (add_right_injective _), parent_smul_add]
  simp only [left_eq_add]
  split
  · next h => exact List.count_eq_one_of_mem hnodup (mem_block.2 h)
  · next h => exact List.count_eq_zero_of_not_mem fun hr => h (mem_block.1 hr)

/-- A part is counted as often as the cell it belongs to. -/
lemma count_flatMap_subcells (l : List Point) (q : Point) :
    (l.flatMap subcells).count q = l.count q.parent := by
  induction l with
  | nil => rfl
  | cons c l ih =>
    rw [List.flatMap_cons, List.count_append, ih, count_subcells, List.count_cons, Nat.add_comm]
    simp only [beq_iff_eq]

end Point

/-! ## The cells of one generation -/

/-- From the origin, with any heading, a production owns the parts of the cell of its symbol. -/
lemma cells_production_origin (a : Symbol) (h : Heading) :
    (cells ⟨0, h⟩ a.production).Perm ((Walker.owned ⟨0, h⟩ a).flatMap Point.subcells) := by
  revert h
  cases a <;> decide +kernel

/-- **A production owns the parts of the cell of its symbol.** -/
lemma cells_production (w : Walker) (a : Symbol) :
    (cells (w.scale 5) a.production).Perm ((w.owned a).flatMap Point.subcells) := by
  have hmoved := (cells_production_origin a w.heading).map ((5 : Int) • w.point + ·)
  rw [w.eq_translate_origin, Walker.scale_translate, Walker.scale_origin, cells_translate,
    Walker.owned_translate, Point.flatMap_spread_map_add]
  exact hmoved

/-- **The cells of a grown walk are the parts of the cells of the walk**, each as often as its whole. -/
theorem cells_grow_perm (w : Walker) (s : Sequence) :
    (cells (w.scale 5) (Sequence.grow s)).Perm ((cells w s).flatMap Point.subcells) := by
  rw [cells_grow, cells_eq_flatMap, List.flatMap_assoc]
  exact List.Perm.flatMap_left _ fun x _ => cells_production x.1 x.2

/-! ## The cells of any generation -/

/-- A walk of any generation owns a cell as often as the first walk owns the cell around it. -/
theorem count_cells_grown (w : Walker) (s : Sequence) (generations : Nat) (q : Point) :
    (cells (w.scale (5 ^ generations)) (s.grown generations)).count q =
      (cells w s).count ⟨q.x / 5 ^ generations, q.y / 5 ^ generations⟩ := by
  induction generations generalizing w s with
  | zero => simp [Walker.scale]
  | succ g ih =>
    rw [Walker.scale_pow_succ, Sequence.grown_succ, ih, (cells_grow_perm w s).count_eq,
      Point.count_flatMap_subcells, Point.parent]
    simp only [Int.ediv_ediv_of_nonneg, pow_succ, pow_nonneg, Int.reduceLE]

/-! ## Points beside cells -/

/-- A point is a corner of a cell. -/
def Point.IsCorner (q c : Point) : Prop :=
  (q.x = c.x ∨ q.x = c.x + 1) ∧ (q.y = c.y ∨ q.y = c.y + 1)

/-- A stroke leads to a corner of its cell. -/
lemma exists_owned_of_mem_visited {w : Walker} {a : Symbol} {q : Point} (h : q ∈ w.visited a) :
    ∃ c ∈ w.owned a, q.IsCorner c := by
  have hunit := unit_straight w.heading
  cases a with
  | forwardA | forwardB =>
    obtain rfl := List.mem_singleton.1 h
    refine ⟨_, List.mem_singleton_self _, ?_⟩
    simp only [Point.IsCorner, Walker.step, Point.cell, Point.left, Point.right, Point.x_add,
      Point.y_add]
    omega
  | turnLeft | turnRight => cases h

/-- A walk is led to corners of its cells only. -/
theorem exists_cell_of_mem_targets {w : Walker} {s : Sequence} {q : Point} (h : q ∈ targets w s) :
    ∃ c ∈ cells w s, q.IsCorner c := by
  rw [targets_eq_flatMap] at h
  obtain ⟨x, hx, hq⟩ := List.mem_flatMap.1 h
  obtain ⟨c, hc, hcorner⟩ := exists_owned_of_mem_visited hq
  rw [cells_eq_flatMap]
  exact ⟨c, List.mem_flatMap.2 ⟨x, hx, hc⟩, hcorner⟩

/-! ## The square of the standard seed -/

variable (generations : Nat)

/-- In any generation the standard seed owns every cell of a square once, and no others. -/
lemma count_cells_square (q : Point) :
    (cells ⟨0, 0⟩ (Sequence.grown [.turnRight, .forwardB] generations)).count q =
      if -(5 ^ generations) ≤ q.x ∧ q.x < 0 ∧ 0 ≤ q.y ∧ q.y < 5 ^ generations then 1 else 0 := by
  have hpos : (0 : Int) < 5 ^ generations := pow_pos (by decide) _
  have hcells : cells ⟨0, 0⟩ [.turnRight, .forwardB] = [⟨-1, 0⟩] := by decide
  have hcount := count_cells_grown ⟨0, 0⟩ [.turnRight, .forwardB] generations q
  rw [Walker.scale_origin, hcells] at hcount
  rw [hcount, List.count_singleton]
  simp only [beq_iff_eq, Point.mk.injEq, eq_comm (a := (-1 : Int)), eq_comm (a := (0 : Int)),
    Int.ediv_eq_iff_of_pos hpos]
  congr 1
  apply propext
  omega

/-- The standard seed visits points of the square only. -/
lemma mem_square_of_mem_points {q : Point}
    (h : q ∈ points ⟨0, 0⟩ (Sequence.grown [.turnRight, .forwardB] generations)) :
    -(5 ^ generations) ≤ q.x ∧ q.x ≤ 0 ∧ 0 ≤ q.y ∧ q.y ≤ 5 ^ generations := by
  rcases List.mem_cons.1 h with rfl | htarget
  · have hpos : (0 : Int) < 5 ^ generations := pow_pos (by decide) _
    simp only [Point.x_zero, Point.y_zero]
    omega
  · obtain ⟨c, hc, hx, hy⟩ := exists_cell_of_mem_targets htarget
    have hcount := List.count_pos_iff.2 hc
    rw [count_cells_square] at hcount
    split at hcount
    · next hsquare => omega
    · next => omega

/-- **Growth tiles.** A grown walk owns the 25 parts of every cell of the walk, each as often as its
whole. So the standard seed, walked from the origin, has `25 ^ generations` strokes; they own every cell
of the square of side `5 ^ generations` to the upper left of the origin exactly once; and the walk
stays in this square. -/
theorem growth_tiles_square :
    (∀ (w : Walker) (s : Sequence),
      (cells (w.scale 5) (Sequence.grow s)).Perm ((cells w s).flatMap Point.subcells)) ∧
    ∀ generations : Nat,
      let origin : Walker := ⟨⟨0, 0⟩, 0⟩
      let s := Sequence.grown [.turnRight, .forwardB] generations
      s.strokes = 25 ^ generations ∧
        (∀ q, (cells origin s).count q =
          if -(5 ^ generations) ≤ q.x ∧ q.x < 0 ∧ 0 ≤ q.y ∧ q.y < 5 ^ generations then 1 else 0) ∧
        ∀ q ∈ points origin s,
          -(5 ^ generations) ≤ q.x ∧ q.x ≤ 0 ∧ 0 ≤ q.y ∧ q.y ≤ 5 ^ generations := by
  refine ⟨cells_grow_perm, fun generations => ⟨?_, count_cells_square generations, ?_⟩⟩
  · have hone : Sequence.strokes [.turnRight, .forwardB] = 1 := rfl
    rw [Sequence.strokes_grown_eq_mul, hone, Nat.mul_one]
  · intro q hq
    exact mem_square_of_mem_points generations hq

/-- The walk of the first generation reaches the upper side of its square, and it owns the cell in the
upper left corner but not the one to the right of the origin. -/
theorem growth_tiles_square_first :
    let s := Sequence.grown [.turnRight, .forwardB] 1
    (⟨-2, 5⟩ : Point) ∈ points ⟨⟨0, 0⟩, 0⟩ s ∧
      (-(5 ^ 1) ≤ (-2 : Int) ∧ (-2 : Int) ≤ 0 ∧ (0 : Int) ≤ 5 ∧ (5 : Int) ≤ 5 ^ 1) ∧
      (cells ⟨⟨0, 0⟩, 0⟩ s).count ⟨-5, 4⟩ = 1 ∧ (cells ⟨⟨0, 0⟩, 0⟩ s).count ⟨0, 0⟩ = 0 := by
  obtain ⟨-, hcells, hpoints⟩ := growth_tiles_square.2 1
  have hvisited : (⟨-2, 5⟩ : Point) ∈
      points ⟨⟨0, 0⟩, 0⟩ (Sequence.grown [.turnRight, .forwardB] 1) := by decide +kernel
  exact ⟨hvisited, hpoints _ hvisited, (hcells _).trans (by decide), (hcells _).trans (by decide)⟩

end Ribbon.Grid
