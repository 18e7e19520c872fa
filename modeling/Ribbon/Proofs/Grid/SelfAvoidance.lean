import Mathlib.Algebra.Order.Archimedean.Real.Basic
import Mathlib.Algebra.Order.Module.Defs
import Mathlib.Algebra.Order.Monoid.Prod
import Mathlib.Analysis.Convex.Segment
import Mathlib.Data.Finset.Card
import Mathlib.Data.List.Nodup
import Ribbon.Proofs.Grid.Tiling

/-!
# Walks that do not meet themselves

A grown walk passes no point twice, and drawn in the plane it neither touches nor crosses itself.

## Main definitions

* `Ribbon.Grid.Point.toPlane` — a point of the grid in the plane.
* `Ribbon.Grid.Point.waypoints`, `Ribbon.Grid.Point.host` — the points that belong to a cell, and the
  cell to which a point belongs.
* `Ribbon.Grid.Embedded` — a walk that passes no point twice and owns no cell twice.

## Main results

* `Ribbon.Grid.isChain_points` — the points of a walk are one step apart.
* `Ribbon.Grid.eq_of_mem_segments` — strokes meet only where one ends and the next begins.
* `Ribbon.Grid.points_grow_perm` — the points of a grown walk.
* `Ribbon.Grid.Embedded.grown` — no generation passes a point twice or owns a cell twice.
* `Ribbon.Grid.growth_avoids_itself` — the same, with the standard seed as an instance.
-/

set_option relaxedAutoImplicit false
set_option autoImplicit false

namespace Ribbon.Grid

/-! ## Walks drawn in the plane

The strokes of a walk are straight pieces of length one in the plane, between points with integer
coordinates. Where two of them meet, rounding the coordinates down and up gives ends of both. So a walk
that passes no point twice neither touches nor crosses itself when it is drawn.
-/

section

/-! ### Steps between points -/

/-- The points of a walk are one step apart. -/
theorem isChain_points (w : Walker) (s : Sequence) :
    (points w s).IsChain fun p q => ∃ h : Heading, q = p + h.unit := by
  induction s generalizing w with
  | nil => exact List.isChain_singleton _
  | cons a s ih =>
    by_cases ha : a.isForward = true
    · rw [points_cons_forward w s ha]
      exact List.isChain_cons_cons.2 ⟨⟨w.heading, rfl⟩, ih w.step⟩
    · rw [points_cons_turn w s (by simpa using ha)]
      exact ih (w.follow a)

/-! ### Strokes in the plane -/

/-- A point of the grid in the plane. -/
def Point.toPlane (p : Point) : ℝ × ℝ := (p.x, p.y)

section

variable {p q r : Point} {z : ℝ × ℝ}

/-- The coordinates of a point between `p` and `q`, rounded down or up, are between theirs. -/
lemma between_of_mem_segment (hx : p.x ≤ q.x) (hy : p.y ≤ q.y)
    (hz : z ∈ segment ℝ p.toPlane q.toPlane) :
    (p.x ≤ ⌊z.1⌋ ∧ ⌈z.1⌉ ≤ q.x) ∧ p.y ≤ ⌊z.2⌋ ∧ ⌈z.2⌉ ≤ q.y := by
  have hle : p.toPlane ≤ q.toPlane := ⟨Int.cast_le.2 hx, Int.cast_le.2 hy⟩
  obtain ⟨hlow, hhigh⟩ := segment_subset_Icc hle hz
  exact ⟨⟨Int.le_floor.2 hlow.1, Int.ceil_le.2 hhigh.1⟩, Int.le_floor.2 hlow.2, Int.ceil_le.2 hhigh.2⟩

/-- A point on a stroke has the ends of the stroke as its corners: rounding its coordinates down gives
one of the ends, and so does rounding them up. -/
lemma corners_of_mem_segment {h : Heading} (hq : q = p + h.unit)
    (hz : z ∈ segment ℝ p.toPlane q.toPlane) :
    ((⟨⌊z.1⌋, ⌊z.2⌋⟩ : Point) = p ∨ (⟨⌊z.1⌋, ⌊z.2⌋⟩ : Point) = q) ∧
      ((⟨⌈z.1⌉, ⌈z.2⌉⟩ : Point) = p ∨ (⟨⌈z.1⌉, ⌈z.2⌉⟩ : Point) = q) := by
  have hx : q.x = p.x + h.unit.x := congrArg Point.x hq
  have hy : q.y = p.y + h.unit.y := congrArg Point.y hq
  have hunit := unit_straight h
  have hround := Int.floor_le_ceil z.1
  have hround' := Int.floor_le_ceil z.2
  simp only [Point.ext_iff]
  -- a step up or to the right is a step down or to the left, taken backwards
  by_cases hle : p.x ≤ q.x ∧ p.y ≤ q.y
  · have hbetween := between_of_mem_segment hle.1 hle.2 hz
    omega
  · rw [segment_symm] at hz
    have hbetween := between_of_mem_segment (p := q) (q := p) (by omega) (by omega) hz
    omega

/-- A point of the plane whose coordinates are rounded to `r` both ways is `r`. -/
lemma eq_toPlane_of_corners (hfloor : (⟨⌊z.1⌋, ⌊z.2⌋⟩ : Point) = r)
    (hceil : (⟨⌈z.1⌉, ⌈z.2⌉⟩ : Point) = r) : z = r.toPlane := by
  subst hfloor
  obtain ⟨hx, hy⟩ := Point.ext_iff.1 hceil
  have hround (x : ℝ) (h : ⌈x⌉ = ⌊x⌋) : x = ⌊x⌋ :=
    le_antisymm (h ▸ Int.le_ceil x) (Int.floor_le x)
  exact Prod.ext (hround _ hx) (hround _ hy)

end

/-! ### Walks in the plane -/

variable {w : Walker} {s : Sequence}

/-- **Strokes meet only where one ends and the next begins**, if a walk passes no point twice.

**Proof sketch.** A point on two strokes has corners that are ends of both (`corners_of_mem_segment`).
The points of the walk are different, so both corners are the end of the earlier stroke at which the later
one begins, and the point is there as well. -/
theorem eq_of_mem_segments (hw : (points w s).Nodup) {i j : Nat} (hij : i < j)
    (hj : j + 1 < (points w s).length) {z : ℝ × ℝ}
    (hi : z ∈ segment ℝ (points w s)[i].toPlane (points w s)[i + 1].toPlane)
    (hz : z ∈ segment ℝ (points w s)[j].toPlane (points w s)[j + 1].toPlane) :
    j = i + 1 ∧ z = (points w s)[j].toPlane := by
  obtain ⟨h, hstep⟩ := (isChain_points w s).getElem i (by omega)
  obtain ⟨h', hstep'⟩ := (isChain_points w s).getElem j hj
  obtain ⟨hfloor, hceil⟩ := corners_of_mem_segment hstep hi
  obtain ⟨hfloor', hceil'⟩ := corners_of_mem_segment hstep' hz
  have hcommon (r : Point) (hr : r = (points w s)[i] ∨ r = (points w s)[i + 1])
      (hr' : r = (points w s)[j] ∨ r = (points w s)[j + 1]) :
      j = i + 1 ∧ r = (points w s)[j] := by
    rcases hr with rfl | rfl <;> rcases hr' with hr | hr <;>
      have heq := hw.getElem_inj_iff.1 hr
    · omega
    · omega
    · exact ⟨heq.symm, hr⟩
    · omega
  have hlow := hcommon _ hfloor hfloor'
  exact ⟨hlow.1, eq_toPlane_of_corners hlow.2 (hcommon _ hceil hceil').2⟩

end

/-! ## Grown walks do not meet themselves

A production passes 24 points of the refined grid before it ends. They belong to the cell of its stroke:
its 16 inner points, and two of the four points inside each of its sides. Which half of a side belongs
to which of the two cells beside it does not depend on the strokes there, so walks in different cells
share no point but the ends of their strokes. If a walk passes no point twice and owns no cell twice, the
same is true of every generation.
-/

/-! ### The points of a cell -/

namespace Point

/-- The offsets of the points that belong to a cell: the inner ones, and a half of the lower, the upper,
the right and the left side. -/
def waypointOffsets : List Point :=
  (List.range 4).flatMap (fun (i : Nat) => (List.range 4).map fun (j : Nat) => ⟨i + 1, j + 1⟩) ++
    [⟨1, 0⟩, ⟨2, 0⟩, ⟨3, 5⟩, ⟨4, 5⟩, ⟨5, 1⟩, ⟨5, 2⟩, ⟨0, 3⟩, ⟨0, 4⟩]

/-- The points that belong to a cell, on the refined grid. -/
abbrev waypoints : Point → List Point :=
  spread waypointOffsets

/-- The cell to which a point of the refined grid belongs. The lower half of an upright side belongs to
the cell on its left, and the right half of a level side to the cell below. -/
def host (q : Point) : Point where
  x := if q.x % 5 = 0 ∧ q.y % 5 < 3 then q.x / 5 - 1 else q.x / 5
  y := if q.y % 5 = 0 ∧ 3 ≤ q.x % 5 then q.y / 5 - 1 else q.y / 5

/-- The host of a point, from any corner. -/
lemma host_smul_add (c q : Point) : ((5 : Int) • c + q).host = c + q.host := by
  ext <;> simp only [host, x_add, y_add, x_smul, y_smul] <;> split <;> split <;> omega

/-- A point that belongs to a cell has it as its host. -/
lemma host_of_mem_waypoints {c q : Point} (h : q ∈ c.waypoints) : q.host = c := by
  have horigin : ∀ r ∈ waypointOffsets, r.host = 0 := by decide
  obtain ⟨r, hr, rfl⟩ := List.mem_map.1 h
  rw [host_smul_add, horigin r hr, add_zero]

/-- A point of the grid belongs to no cell when the grid is refined. -/
lemma smul_notMem_waypoints (c p : Point) : (5 : Int) • p ∉ c.waypoints := by
  have horigin : ∀ r ∈ waypointOffsets, r.x % 5 ≠ 0 ∨ r.y % 5 ≠ 0 := by decide
  intro h
  obtain ⟨r, hr, heq⟩ := List.mem_map.1 h
  obtain ⟨hx, hy⟩ := Point.ext_iff.1 heq
  simp only [x_add, y_add, x_smul, y_smul] at hx hy
  rcases horigin r hr with hr | hr <;> omega

/-- Different cells have different points. -/
lemma nodup_flatMap_waypoints {l : List Point} (h : l.Nodup) : (l.flatMap waypoints).Nodup := by
  have hoffsets : waypointOffsets.Nodup := by decide
  rw [List.nodup_flatMap]
  refine ⟨fun c _ => hoffsets.map (add_right_injective _), h.imp fun {c c'} hne q hq hq' => ?_⟩
  exact hne ((host_of_mem_waypoints hq).symm.trans (host_of_mem_waypoints hq'))

/-- Different points are different on the refined grid. -/
lemma nodup_map_smul {l : List Point} (h : l.Nodup) : (l.map ((5 : Int) • ·)).Nodup := by
  refine h.map fun p q hpq => ?_
  obtain ⟨hx, hy⟩ := Point.ext_iff.1 hpq
  simp only [x_smul, y_smul] at hx hy
  ext <;> omega

end Point

/-! ### The points of one generation -/

/-- From the origin, with any heading, a production leads to the end of its symbol and through the points
of its cell. -/
lemma targets_production_origin (a : Symbol) (h : Heading) :
    (targets ⟨0, h⟩ a.production).Perm
      ((Walker.visited ⟨0, h⟩ a).map ((5 : Int) • ·) ++
        (Walker.owned ⟨0, h⟩ a).flatMap Point.waypoints) := by
  revert h
  cases a <;> decide +kernel

/-- **A production leads to the end of its symbol and through the points of its cell.** -/
lemma targets_production (w : Walker) (a : Symbol) :
    (targets (w.scale 5) a.production).Perm
      ((w.visited a).map ((5 : Int) • ·) ++ (w.owned a).flatMap Point.waypoints) := by
  have hmoved := (targets_production_origin a w.heading).map ((5 : Int) • w.point + ·)
  rw [w.eq_translate_origin, Walker.scale_translate, Walker.scale_origin, targets_translate,
    Walker.owned_translate, Walker.visited_translate, Point.flatMap_spread_map_add]
  simpa only [List.map_append, List.map_map, Function.comp_def, zsmul_add] using hmoved

/-- **The points of a grown walk** are those of the walk and those that belong to its cells. -/
theorem points_grow_perm (w : Walker) (s : Sequence) :
    (points (w.scale 5) (Sequence.grow s)).Perm
      ((points w s).map ((5 : Int) • ·) ++ (cells w s).flatMap Point.waypoints) := by
  have htargets : (targets (w.scale 5) (Sequence.grow s)).Perm
      ((targets w s).map ((5 : Int) • ·) ++ (cells w s).flatMap Point.waypoints) := by
    rw [targets_grow, targets_eq_flatMap, cells_eq_flatMap, List.map_flatMap, List.flatMap_assoc]
    exact (List.Perm.flatMap_left _ fun x _ => targets_production x.1 x.2).trans
      (List.flatMap_append_perm _ _ _).symm
  exact htargets.cons _

/-! ### Embedded walks -/

/-- A walk that passes no point twice and owns no cell twice. -/
structure Embedded (w : Walker) (s : Sequence) : Prop where
  nodup_points : (points w s).Nodup
  nodup_cells : (cells w s).Nodup

namespace Embedded

variable {w : Walker} {s : Sequence}

/-- A walk is embedded wherever it begins. -/
lemma translate (v : Point) (h : Embedded w s) : Embedded (w.translate v) s where
  nodup_points := by
    rw [points_translate]
    exact h.nodup_points.map (add_right_injective v)
  nodup_cells := by
    rw [cells_translate]
    exact h.nodup_cells.map (add_right_injective v)

/-- **The next generation of an embedded walk is embedded.**

**Proof sketch.** The points of the grown walk are points of the refined grid that are five times those
of the walk, and points that belong to its cells. The former are different because the points are, and
the latter because the cells are; and no point is of both kinds. The parts of different cells are
different as well. -/
lemma grow (h : Embedded w s) : Embedded (w.scale 5) (Sequence.grow s) where
  nodup_points := by
    rw [(points_grow_perm w s).nodup_iff]
    refine (Point.nodup_map_smul h.nodup_points).append
      (Point.nodup_flatMap_waypoints h.nodup_cells) ?_
    intro q hq hq'
    obtain ⟨p, -, rfl⟩ := List.mem_map.1 hq
    obtain ⟨c, -, hc⟩ := List.mem_flatMap.1 hq'
    exact Point.smul_notMem_waypoints c p hc
  nodup_cells := by
    rw [(cells_grow_perm w s).nodup_iff, List.nodup_iff_count_le_one]
    intro q
    rw [Point.count_flatMap_subcells]
    exact List.nodup_iff_count_le_one.1 h.nodup_cells _

/-- Every generation of an embedded walk is embedded, on the refined grid. -/
lemma grown_scale (h : Embedded w s) (generations : Nat) :
    Embedded (w.scale (5 ^ generations)) (s.grown generations) := by
  induction generations generalizing w s with
  | zero => simpa [Walker.scale] using h
  | succ g ih =>
    rw [Walker.scale_pow_succ, Sequence.grown_succ]
    exact ih h.grow

/-- **Every generation of an embedded walk is embedded**, from the same start. -/
theorem grown (h : Embedded w s) (generations : Nat) : Embedded w (s.grown generations) := by
  have horigin : Embedded ⟨0, w.heading⟩ (s.grown generations) := by
    have hback : Embedded ⟨0, w.heading⟩ s := by
      simpa [Walker.translate] using h.translate (-w.point)
    simpa only [Walker.scale_origin] using hback.grown_scale generations
  rw [w.eq_translate_origin]
  exact horigin.translate w.point

end Embedded

/-! ### The standard seed -/

/-- The walk of the standard seed is embedded, wherever it begins. -/
lemma embedded_standard (w : Walker) : Embedded w [.turnRight, .forwardB] := by
  have hpoints : ∀ h : Heading, (points ⟨0, h⟩ [.turnRight, .forwardB]).Nodup := by decide
  rw [w.eq_translate_origin]
  exact Embedded.translate w.point ⟨hpoints _, List.nodup_singleton _⟩

/-- **Grown walks avoid themselves.** If a walk passes no point twice and owns no cell twice, then no
generation of it does. So every generation of the standard seed visits `25 ^ generations + 1` points,
all different, and drawn in the plane it neither touches nor crosses itself: two strokes meet only if one
begins where the other ends, and only there. -/
theorem growth_avoids_itself :
    (∀ (w : Walker) (s : Sequence), (points w s).Nodup → (cells w s).Nodup → ∀ generations : Nat,
      (points w (s.grown generations)).Nodup ∧ (cells w (s.grown generations)).Nodup) ∧
    ∀ (w : Walker) (generations : Nat),
      let curve := points w (Sequence.grown [.turnRight, .forwardB] generations)
      curve.Nodup ∧ curve.toFinset.card = 25 ^ generations + 1 ∧
        ∀ (i j : Nat) (z : ℝ × ℝ) (hij : i < j) (hj : j + 1 < curve.length),
          z ∈ segment ℝ curve[i].toPlane curve[i + 1].toPlane →
          z ∈ segment ℝ curve[j].toPlane curve[j + 1].toPlane →
          j = i + 1 ∧ z = curve[j].toPlane := by
  constructor
  · intro w s hpoints hcells generations
    have hgrown := Embedded.grown ⟨hpoints, hcells⟩ generations
    exact ⟨hgrown.nodup_points, hgrown.nodup_cells⟩
  · intro w generations curve
    have hcurve : curve.Nodup := ((embedded_standard w).grown generations).nodup_points
    have hone : Sequence.strokes [.turnRight, .forwardB] = 1 := rfl
    have hlength : curve.length = 25 ^ generations + 1 := by
      rw [length_points, Sequence.strokes_grown_eq_mul, hone, Nat.mul_one]
    refine ⟨hcurve, (List.toFinset_card_of_nodup hcurve).trans hlength, ?_⟩
    intro i j z hij hj hi hz
    exact eq_of_mem_segments hcurve hij hj hi hz

/-- A walk that goes round two cells, one of which each of its arms owns. -/
def hook : Sequence :=
  [.forwardA, .forwardA, .turnLeft, .forwardB, .turnLeft, .forwardA, .forwardB]

/-- No generation of the hook meets itself; the first two strokes of the first generation of the standard
seed meet in the end of the first. -/
theorem growth_avoids_itself_hook :
    let w : Walker := ⟨⟨3, -2⟩, 2⟩
    let curve := points ⟨⟨0, 0⟩, 0⟩ (Sequence.grown [.turnRight, .forwardB] 1)
    let z := (⟨0, 1⟩ : Point).toPlane
    ((points w hook).Nodup ∧ (cells w hook).Nodup ∧
      (points w (hook.grown 4)).Nodup ∧ (cells w (hook.grown 4)).Nodup) ∧
      ∃ (h₀ : 0 < curve.length) (h₁ : 1 < curve.length) (h₂ : 2 < curve.length),
        z ∈ segment ℝ (curve.get ⟨0, h₀⟩).toPlane (curve.get ⟨1, h₁⟩).toPlane ∧
        z ∈ segment ℝ (curve.get ⟨1, h₁⟩).toPlane (curve.get ⟨2, h₂⟩).toPlane ∧
        z = (curve.get ⟨1, h₁⟩).toPlane := by
  intro w curve z
  have hpoints : (points w hook).Nodup := by decide
  have hcells : (cells w hook).Nodup := by decide
  obtain ⟨hpoints', hcells'⟩ := growth_avoids_itself.1 w hook hpoints hcells 4
  have hlt : 2 < curve.length := by decide +kernel
  have hone : curve.get ⟨1, by omega⟩ = ⟨0, 1⟩ := rfl
  have hend : z ∈ segment ℝ (curve.get ⟨0, by omega⟩).toPlane (curve.get ⟨1, by omega⟩).toPlane := by
    rw [hone]
    exact right_mem_segment ℝ _ _
  have hstart : z ∈ segment ℝ (curve.get ⟨1, by omega⟩).toPlane (curve.get ⟨2, hlt⟩).toPlane := by
    rw [hone]
    exact left_mem_segment ℝ _ _
  obtain ⟨-, hmeet⟩ := (growth_avoids_itself.2 ⟨⟨0, 0⟩, 0⟩ 1).2.2 0 1 z (by decide) hlt hend hstart
  exact ⟨⟨hpoints, hcells, hpoints', hcells'⟩, by omega, by omega, hlt, hend, hstart, hmeet⟩

end Ribbon.Grid
