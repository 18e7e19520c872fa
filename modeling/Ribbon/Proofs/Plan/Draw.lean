import Ribbon.Proofs.Plan.Capacity

/-!
# The mesh of a sequence

What a plan draws, said of the sequence alone; and what two strokes in a row, and two sequences of which
one continues the other, have in common.

## Main results

* `Ribbon.Plan.draw_indices` — the indices and the counts of a mesh.
* `Ribbon.Plan.draw_vertices` — the positions and the colours of a mesh, by the leads of its
  strokes.
* `Ribbon.Stroke.start_after_turns`, `Ribbon.Stroke.side_after_turns` — two strokes with turns
  between them.
* `Ribbon.Plan.draw_seams` — the vertices that two strokes share.
* `Ribbon.Path.strokes_prefix_follow`, `Ribbon.Path.strokes_prefix_trace` — what one symbol, and what
  the rest of a sequence, leaves behind.
* `Ribbon.Plan.draw_continues` — vertices, colours and indices of the longer sequence go on where
  those of the shorter one end.
-/

set_option relaxedAutoImplicit false
set_option autoImplicit false

namespace Ribbon.Plan

/-! ## The mesh of a sequence

What a plan draws, said of the sequence alone: which vertices its triangles name, and where every
vertex lies and which colour it has.
-/

/-- A plan for the standard settings. -/
def standard : Plan where
  config := Config.standard
  seed := [.turnRight, .forwardB]
  valid := by decide +kernel
  spelled := by decide +kernel

/-- A sequence with turns before, between and after its strokes. -/
def bent : Sequence :=
  [.turnLeft, .forwardA, .turnRight, .turnLeft, .forwardB, .turnRight]

/-- A plan that draws a sequence draws the mesh of its path. -/
lemma eq_ofPath_of_draw (p : Plan) {s : Sequence} {m : Mesh} (h : p.draw s = .ok m) :
    m = Mesh.ofPath p.config.palette (Path.trace p.config s) :=
  (p.draw_eq_ok_iff.1 h).2

/-- **The triangles of a mesh.** A sequence with at most 16384 strokes is drawn, and the indices of
its mesh, as numbers, are those of its strokes in order: first the joints of the stroke, one for each
turn since the stroke before, and then its two halves. Joints and triangles are counted accordingly,
and every index belongs to a vertex. -/
theorem draw_indices (p : Plan) {s : Sequence} (h : s.strokes ≤ 16384) :
    ∃ m, p.draw s = .ok m ∧
      m.indices.map UInt16.toNat =
        (List.range s.strokes).flatMap (fun k =>
          (List.replicate (s.joints k) [4 * k, 4 * k - 1, 4 * k - 2]).flatten ++
            [4 * k, 4 * k + 1, 4 * k + 2, 4 * k + 1, 4 * k + 2, 4 * k + 3]) ∧
      m.jointCount = ((List.range s.strokes).map s.joints).sum ∧
      m.triangleCount = 2 * s.strokes + ((List.range s.strokes).map s.joints).sum ∧
      m.vertexCount = 4 * s.strokes ∧
      ∀ i ∈ m.indices, i.toNat < m.vertexCount := by
  have hle : 4 * s.strokes ≤ Mesh.maxVertices := by
    simp only [Mesh.maxVertices]
    omega
  have hindices := Mesh.map_toNat_indices_ofPath p.config p.config.palette s hle
  refine ⟨_, p.draw_eq_ok hle, hindices, Mesh.jointCount_ofPath _ _ _,
    Mesh.triangleCount_ofPath _ _ _, Mesh.vertexCount_ofPath _ _ _, ?_⟩
  intro i hi
  have hmem := List.mem_map_of_mem (f := UInt16.toNat) hi
  rw [hindices] at hmem
  obtain ⟨k, hk, hik⟩ := List.mem_flatMap.1 hmem
  have hlt : k < s.strokes := List.mem_range.1 hk
  have hlast := Mesh.le_of_mem_vertexNumbers hik
  rw [Mesh.vertexCount_ofPath]
  omega

/-- The turns before the first stroke and after the last are no joints; the two between are. -/
theorem draw_indices_bent :
    Sequence.strokes bent ≤ 16384 ∧ ∃ m, standard.draw bent = .ok m ∧
      m.indices.map UInt16.toNat =
        [0, 1, 2, 1, 2, 3, 4, 3, 2, 4, 3, 2, 4, 5, 6, 5, 6, 7] ∧
      m.jointCount = 2 ∧ m.triangleCount = 6 ∧ m.vertexCount = 8 ∧
      ∀ i ∈ m.indices, i.toNat < m.vertexCount := by
  obtain ⟨m, hm, hindices, hjoints, htriangles, hvertices, hlt⟩ :=
    draw_indices standard (s := bent) (by decide)
  exact ⟨by decide, m, hm, hindices.trans (by decide), hjoints.trans (by decide),
    htriangles.trans (by decide), hvertices.trans (by decide), hlt⟩

/-- **The vertices of a mesh.** Each stroke of a drawn sequence has four vertices, whose positions and
colours are determined by the lead `u` of the stroke: the stroke begins where `u` leads and goes one
step along the heading of `u`; its vertices lie half the width of the ribbon to either side; and its
colour is found by moving the colour index once for every turn of `u`. There are no other vertices
or colours. -/
theorem draw_vertices (p : Plan) {s : Sequence} {m : Mesh} (h : p.draw s = .ok m) :
    m.positions.length = 4 * s.strokes ∧ m.colors.length = 4 * s.strokes ∧
      ∀ u a v, s = u ++ a :: v → a.isForward = true →
        let c := p.config
        let start := Turtle.positionAfter c u
        let finish := start + (Sequence.heading u).direction.scale c.step
        let side := (Sequence.heading u).perpendicular.scale (c.step * c.thickness / 2)
        let base := 4 * Sequence.strokes u
        m.positions[base]? = some (Stroke.clip (start + side)) ∧
          m.positions[base + 1]? = some (Stroke.clip (start - side)) ∧
          m.positions[base + 2]? = some (Stroke.clip (finish + side)) ∧
          m.positions[base + 3]? = some (Stroke.clip (finish - side)) ∧
          ∀ j < 4, m.colors[base + j]? =
            some (c.palette.colorAt
              ((fun i => c.palette.shift i c.colorDelta)^[Sequence.turns u] 0)) := by
  obtain rfl := p.eq_ofPath_of_draw h
  refine ⟨Mesh.vertexCount_ofPath _ _ _, Mesh.length_colors_ofPath _ _ _, ?_⟩
  rintro u a v rfl ha
  have hposition (j : Nat) (hj : j < 4) :=
    Mesh.getElem?_positions_ofPath p.config p.config.palette u v ha hj
  exact ⟨hposition 0 (by decide), hposition 1 (by decide), hposition 2 (by decide),
    hposition 3 (by decide), fun j hj => Mesh.getElem?_colors_ofPath _ _ u v ha hj⟩

/-- The second stroke is drawn to the right, from the end of the first, in the colour after three
turns. -/
theorem draw_vertices_bent :
    ∃ m, standard.draw bent = .ok m ∧ m.positions.length = 8 ∧ m.colors.length = 8 ∧
      let start := Turtle.positionAfter standard.config [.turnLeft, .forwardA, .turnRight, .turnLeft]
      let side := (⟨0, 1, 0⟩ : Vec3).scale (standard.config.step * standard.config.thickness / 2)
      m.positions[4]? = some (Stroke.clip (start + side)) ∧
        m.positions[5]? = some (Stroke.clip (start - side)) ∧
        m.colors[7]? = some (standard.config.palette.colorAt
          ((fun i => standard.config.palette.shift i standard.config.colorDelta)^[3] 0)) ∧
        m.positions[4]? = some ⟨1.0384614, -0.9307692, 0⟩ ∧
        m.positions[5]? = some ⟨1.0384614, -0.99230766, 0⟩ ∧
        m.positions[6]? = some ⟨1.1153846, -0.9307692, 0⟩ ∧
        m.positions[7]? = some ⟨1.1153846, -0.99230766, 0⟩ ∧
        m.colors[7]? = some ⟨1, 0.94, 0.06, 1⟩ := by
  have hdraw := standard.draw_eq_ok (s := bent) (by decide)
  obtain ⟨hpositions, hcolors, hstrokes⟩ := draw_vertices standard hdraw
  obtain ⟨hfirst, hsecond, hthird, hfourth, hcolor⟩ :=
    hstrokes [.turnLeft, .forwardA, .turnRight, .turnLeft] .forwardB [.turnRight] rfl rfl
  have hlast := hcolor 3 (by decide)
  exact ⟨_, hdraw, hpositions.trans (by decide), hcolors.trans (by decide), hfirst, hsecond, hlast,
    hfirst.trans (by decide +kernel), hsecond.trans (by decide +kernel),
    hthird.trans (by decide +kernel), hfourth.trans (by decide +kernel),
    hlast.trans (by decide +kernel)⟩

end Ribbon.Plan

namespace Ribbon

/-! ## A straight run has no cracks

The vertices at the end of a stroke and those at the beginning of the next are computed from a
position of the turtle and an offset to its side. Turns between the two strokes leave the position as
it is, and if they add up to whole turns, the offset too. So where the ribbon runs straight on, both
strokes share their vertices bit by bit, however far rounding has taken the turtle by then.
-/

namespace Stroke

variable (c : Config) (u : Sequence) {a : Symbol} (ha : a.isForward = true) {w : Sequence}

include ha

/-- A stroke begins where the one before ends, whatever turns are between. -/
theorem start_after_turns (hw : w.strokes = 0) :
    (after c (u ++ a :: w)).start = (after c u).finish := by
  rw [List.append_cons, after, Turtle.positionAfter_append_turns hw,
    Turtle.positionAfter_append_forward ha, after]

/-- With whole turns between them, two strokes have the same offset to their sides. -/
theorem side_after_turns (hwhole : w.rotation % 4 = 0) :
    (after c (u ++ a :: w)).side = (after c u).side := by
  have hrotation : Sequence.rotation (a :: w) % 4 = 0 := by
    have hcons : Sequence.rotation (a :: w) = Sequence.rotation [a] + w.rotation :=
      Sequence.rotation_append [a] w
    rw [hcons, Sequence.rotation_forward ha, Int.zero_add, hwhole]
  simp only [after, Sequence.heading_append_of_rotation u hrotation]

end Stroke

namespace Plan

/-- **A straight run has no cracks.** Wherever the turns between a stroke of a drawn sequence and the
next one add up to whole turns, in particular where there are none, the last two vertices of the
stroke are the first two of the next one, coordinate by coordinate and bit by bit.

**Proof sketch.** The two strokes have the leads `u` and `u ++ a :: w`, where `a` is the first of them
and `w` the turns between. The second begins where the first ends, and both have the same side. -/
theorem draw_seams (p : Plan) {s : Sequence} {m : Mesh} (h : p.draw s = .ok m) {k : Nat}
    (hk : k + 1 < s.strokes) (hwhole : Sequence.rotation (s.gaps.getD (k + 1) []) % 4 = 0) :
    ∃ first second,
      m.positions[4 * k + 2]? = some first ∧ m.positions[4 * k + 4]? = some first ∧
        m.positions[4 * k + 3]? = some second ∧ m.positions[4 * k + 5]? = some second := by
  obtain rfl := p.eq_ofPath_of_draw h
  obtain ⟨u, a, w, b, v, rfl, ha, hb, rfl, hw, hgap⟩ := Sequence.exists_split_of_succ_lt_strokes hk
  rw [hgap] at hwhole
  -- the second stroke has the number behind that of the first
  have hbase : Sequence.strokes (u ++ a :: w) = u.strokes + 1 := by
    rw [Sequence.strokes_append, Sequence.strokes_cons, if_pos ha, hw]
  have hsplit : u ++ a :: (w ++ b :: v) = (u ++ a :: w) ++ b :: v := by
    rw [List.append_assoc, List.cons_append]
  have hbefore (j : Nat) (hj : j < 4) :=
    Mesh.getElem?_positions_ofPath p.config p.config.palette u (w ++ b :: v) ha hj
  have hbehind (j : Nat) (hj : j < 4) :=
    Mesh.getElem?_positions_ofPath p.config p.config.palette (u ++ a :: w) v hb hj
  rw [hbase, ← hsplit] at hbehind
  have hstart := Stroke.start_after_turns p.config u ha hw
  have hside := Stroke.side_after_turns p.config u ha hwhole
  refine ⟨_, _, hbefore 2 (by decide), (hbehind 0 (by decide)).trans ?_, hbefore 3 (by decide),
    (hbehind 1 (by decide)).trans ?_⟩
  · simp only [Stroke.outline, hstart, hside, List.getElem?_cons_zero]
  · simp only [Stroke.outline, hstart, hside, List.getElem?_cons_zero, List.getElem?_cons_succ]

/-- The two turns between the strokes of a bend take each other back, so that the strokes share two
different vertices. -/
theorem draw_seams_bent :
    1 < Sequence.strokes bent ∧ Sequence.rotation ((Sequence.gaps bent).getD 1 []) % 4 = 0 ∧
      ∃ m first second, standard.draw bent = .ok m ∧ first ≠ second ∧
        m.positions[2]? = some first ∧ m.positions[4]? = some first ∧
        m.positions[3]? = some second ∧ m.positions[5]? = some second := by
  have hstrokes : 0 + 1 < Sequence.strokes bent := by decide
  have hwhole : Sequence.rotation ((Sequence.gaps bent).getD (0 + 1) []) % 4 = 0 := by decide
  have hdraw := standard.draw_eq_ok (s := bent) (by decide)
  obtain ⟨first, second, hthird, hfifth, hfourth, hsixth⟩ :=
    draw_seams standard hdraw hstrokes hwhole
  refine ⟨hstrokes, hwhole, _, first, second, hdraw, ?_, hthird, hfifth, hfourth, hsixth⟩
  rintro rfl
  exact absurd (hthird.trans hfourth.symm) (by decide +kernel)

end Plan

/-! ## A longer sequence continues the mesh

The turtle only ever adds strokes at the end of its path, so the mesh of a sequence is the beginning
of the mesh of every longer sequence. Joints that are pending where the shorter sequence ends are
dropped there; in the longer one they come behind everything that both have in common.
-/

/-! ### The path goes on -/

namespace Path

variable (c : Config)

/-- One more symbol adds a stroke at the end, or none. -/
theorem strokes_prefix_follow (p : Path) (a : Symbol) :
    p.strokes.toList <+: (p.follow c a).strokes.toList := by
  cases a with
  | forwardA | forwardB =>
    simp only [follow, Symbol.move, draw, Array.toList_push]
    exact List.prefix_append _ _
  | turnLeft | turnRight => exact List.prefix_rfl

/-- The rest of a sequence adds its strokes at the end. -/
lemma strokes_prefix_foldl (p : Path) (t : Sequence) :
    p.strokes.toList <+: (t.foldl (follow c) p).strokes.toList := by
  induction t generalizing p with
  | nil => exact List.prefix_rfl
  | cons a t ih => exact (strokes_prefix_follow c p a).trans (ih (p.follow c a))

/-- The path of a sequence is the beginning of the path of every longer one. -/
theorem strokes_prefix_trace (s t : Sequence) :
    (trace c s).strokes.toList <+: (trace c (s ++ t)).strokes.toList := by
  rw [trace_append]
  exact strokes_prefix_foldl c _ t

end Path

/-! ### The mesh goes on -/

namespace Mesh

variable (palette : Palette) {p q : Path} (h : p.strokes.toList <+: q.strokes.toList)

include h

/-- Along a path vertices are only added. -/
lemma positions_prefix_ofPath :
    (ofPath palette p).positions <+: (ofPath palette q).positions :=
  h.flatMap _

/-- Along a path colours are only added. -/
lemma colors_prefix_ofPath : (ofPath palette p).colors <+: (ofPath palette q).colors :=
  h.flatMap _

/-- Along a path triangles are only added, since the strokes keep their numbers. -/
lemma triangles_prefix_ofPath :
    (ofPath palette p).triangles <+: (ofPath palette q).triangles := by
  have hnumbered : p.strokes.toList.zipIdx <+: q.strokes.toList.zipIdx := by
    obtain ⟨later, hlater⟩ := h
    rw [← hlater, List.zipIdx_append]
    exact List.prefix_append _ _
  exact hnumbered.flatMap _

/-- Along a path indices are only added. -/
lemma indices_prefix_ofPath : (ofPath palette p).indices <+: (ofPath palette q).indices :=
  (triangles_prefix_ofPath palette h).flatMap _

/-- Along a path joints are only added. -/
lemma jointCount_ofPath_le : (ofPath palette p).jointCount ≤ (ofPath palette q).jointCount := by
  obtain ⟨later, hlater⟩ := h
  simp only [ofPath, Stroke.foldr_joints, ← hlater, List.map_append, List.sum_append]
  exact Nat.le_add_right _ _

end Mesh

namespace Plan

/-- **A longer sequence continues the mesh.** If a plan draws a sequence, it draws every beginning of
it. The vertices, the colours and the indices of the beginning are those that the mesh of the whole
sequence begins with, and it has no more joints. -/
theorem draw_continues (p : Plan) {s t : Sequence} {m : Mesh} (h : p.draw (s ++ t) = .ok m) :
    ∃ first, p.draw s = .ok first ∧ first.positions <+: m.positions ∧
      first.colors <+: m.colors ∧ first.indices <+: m.indices ∧
      first.jointCount ≤ m.jointCount := by
  obtain rfl := p.eq_ofPath_of_draw h
  have hfit : 4 * Sequence.strokes (s ++ t) ≤ Mesh.maxVertices := by
    by_contra hlarge
    rw [p.draw_eq_error (Nat.not_le.1 hlarge)] at h
    cases h
  rw [Sequence.strokes_append] at hfit
  have hpath := Path.strokes_prefix_trace p.config s t
  exact ⟨_, p.draw_eq_ok (by omega), Mesh.positions_prefix_ofPath _ hpath,
    Mesh.colors_prefix_ofPath _ hpath, Mesh.indices_prefix_ofPath _ hpath,
    Mesh.jointCount_ofPath_le _ hpath⟩

/-- Cut between the two turns of a bend: the joints of the bend belong to the stroke behind it. -/
theorem draw_continues_bent :
    let first : Sequence := [.turnLeft, .forwardA, .turnRight]
    ∃ m n, standard.draw (first ++ [.turnLeft, .forwardB, .turnRight]) = .ok m ∧
      standard.draw first = .ok n ∧ n.indices = [0, 1, 2, 1, 2, 3] ∧
      m.indices = [0, 1, 2, 1, 2, 3, 4, 3, 2, 4, 3, 2, 4, 5, 6, 5, 6, 7] ∧
      n.indices <+: m.indices ∧ n.positions <+: m.positions ∧ n.colors <+: m.colors ∧
      n.jointCount ≤ m.jointCount := by
  intro first
  have hdraw := standard.draw_eq_ok (s := first ++ [.turnLeft, .forwardB, .turnRight]) (by decide)
  obtain ⟨n, hn, hpositions, hcolors, hindices, hjoints⟩ := draw_continues standard hdraw
  obtain rfl := standard.eq_ofPath_of_draw hn
  exact ⟨_, _, hdraw, hn, by decide +kernel, by decide +kernel, hindices, hpositions, hcolors,
    hjoints⟩

end Plan

end Ribbon
