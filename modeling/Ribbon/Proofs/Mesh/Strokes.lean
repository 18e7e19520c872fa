import Mathlib.Algebra.BigOperators.Group.List.Basic
import Mathlib.Algebra.Order.Ring.Nat
import Mathlib.Data.List.Basic
import Ribbon.Mesh.Document
import Ribbon.Proofs.Path.Trace

/-!
# The mesh of a sequence, stroke by stroke

Every stroke of a sequence has its own vertices, colours and triangles in the mesh.

## Main results

* `Ribbon.Mesh.vertexCount_ofPath`, `Ribbon.Mesh.length_colors_ofPath` — four for every stroke.
* `Ribbon.Mesh.getElem?_positions_ofPath`, `Ribbon.Mesh.getElem?_colors_ofPath` — the blocks of the
  stroke with a given lead.
* `Ribbon.Mesh.triangles_ofPath_trace` — the triangles of a sequence, by the numbers of its strokes
  and their joints.
* `Ribbon.Mesh.map_toNat_indices_ofPath` — the indices as numbers.
* `Ribbon.Mesh.jointCount_ofPath`, `Ribbon.Mesh.triangleCount_ofPath` — the counts.
-/

set_option relaxedAutoImplicit false
set_option autoImplicit false

namespace Ribbon.Mesh

/-! ## The vertices of a mesh

Every stroke of a sequence has a block of four vertices and a block of four colours, in the order of
the strokes. Both blocks are determined by the lead of the stroke.
-/

/-! ### Blocks of one length -/

section Blocks

variable {α β : Type} {f : α → List β} {n : Nat} (hf : ∀ x, (f x).length = n)

include hf in
/-- Blocks of one length, laid end to end. -/
lemma length_flatMap_blocks (l : List α) : (l.flatMap f).length = n * l.length := by
  rw [List.length_flatMap, funext hf, List.map_const', List.sum_replicate_nat, Nat.mul_comm]

include hf in
/-- Blocks of one length are found by their number. -/
lemma getElem?_flatMap_blocks (l₁ l₂ : List α) (x : α) {j : Nat} (hj : j < n) :
    ((l₁ ++ x :: l₂).flatMap f)[n * l₁.length + j]? = (f x)[j]? := by
  rw [List.flatMap_append, List.flatMap_cons, ← length_flatMap_blocks hf l₁,
    List.getElem?_append_right (Nat.le_add_right _ _), Nat.add_sub_cancel_left,
    List.getElem?_append_left (hf x ▸ hj)]

end Blocks

/-! ### The blocks of a sequence -/

/-- A stroke has four vertices. -/
lemma length_outline (s : Stroke) : s.outline.length = 4 := rfl

/-- A stroke has a colour for each of its vertices. -/
lemma length_colors (palette : Palette) (s : Stroke) : (s.colors palette).length = 4 :=
  List.length_replicate

variable (c : Config) (palette : Palette)

/-- The vertices of a sequence, by the leads of its strokes. -/
lemma positions_ofPath_trace (s : Sequence) :
    (ofPath palette (Path.trace c s)).positions =
      s.leads.flatMap fun u => (Stroke.after c u).outline := by
  simp only [ofPath, Path.toList_strokes_trace, List.flatMap_map]

/-- The colours of a sequence, by the leads of its strokes. -/
lemma colors_ofPath_trace (s : Sequence) :
    (ofPath palette (Path.trace c s)).colors =
      s.leads.flatMap fun u => (Stroke.after c u).colors palette := by
  simp only [ofPath, Path.toList_strokes_trace, List.flatMap_map]

/-- Every stroke has four vertices. -/
theorem vertexCount_ofPath (s : Sequence) :
    (ofPath palette (Path.trace c s)).vertexCount = 4 * s.strokes := by
  rw [vertexCount, positions_ofPath_trace, length_flatMap_blocks fun _ => length_outline _,
    Sequence.length_leads]

/-- Every vertex has a colour. -/
theorem length_colors_ofPath (s : Sequence) :
    (ofPath palette (Path.trace c s)).colors.length = 4 * s.strokes := by
  rw [colors_ofPath_trace, length_flatMap_blocks fun _ => length_colors palette _,
    Sequence.length_leads]

variable {a : Symbol} (u v : Sequence) (h : a.isForward = true) {j : Nat} (hj : j < 4)

include h hj in
/-- The vertices of the stroke whose lead is `u`. -/
theorem getElem?_positions_ofPath :
    (ofPath palette (Path.trace c (u ++ a :: v))).positions[4 * u.strokes + j]? =
      (Stroke.after c u).outline[j]? := by
  rw [positions_ofPath_trace, Sequence.leads_split u v h, ← Sequence.length_leads u]
  exact getElem?_flatMap_blocks (fun _ => length_outline _) _ _ _ hj

include h hj in
/-- The colours of the stroke whose lead is `u` are all the colour at its place on the palette. -/
theorem getElem?_colors_ofPath :
    (ofPath palette (Path.trace c (u ++ a :: v))).colors[4 * u.strokes + j]? =
      some (palette.colorAt (Turtle.colorIndexAfter c u)) := by
  rw [colors_ofPath_trace, Sequence.leads_split u v h, ← Sequence.length_leads u,
    getElem?_flatMap_blocks (fun _ => length_colors palette _) _ _ _ hj]
  exact List.getElem?_replicate_of_lt hj

end Ribbon.Mesh

namespace Ribbon

/-! ## The triangles of a mesh

The triangles of stroke number `k` name the vertices `4 * k` to `4 * k + 3` of the stroke, and its
joints also the last two vertices of the stroke before. With at most 16384 strokes every such number
is an index: nothing is lost in 16 bits.
-/

/-! ### Indices as numbers -/

namespace Triangle

/-- Vertex numbers below the limit are kept as indices. -/
lemma map_toNat_toList_ofNats {a b c : Nat} (ha : a < Mesh.maxVertices)
    (hb : b < Mesh.maxVertices) (hc : c < Mesh.maxVertices) :
    (ofNats a b c).toList.map UInt16.toNat = [a, b, c] := by
  have h (n : Nat) (hn : n < Mesh.maxVertices) : n.toUInt16.toNat = n := Nat.mod_eq_of_lt hn
  simp only [ofNats, toList, List.map_cons, List.map_nil, h a ha, h b hb, h c hc]

end Triangle

/-- Joints are summed up over the strokes. -/
lemma Stroke.foldr_joints (strokes : List Stroke) :
    strokes.foldr (fun s n => s.joints + n) 0 = (strokes.map Stroke.joints).sum := by
  rw [List.sum_eq_foldr, List.foldr_map]

namespace Mesh

/-- The vertex numbers that the triangles of stroke number `k` name, if it has `j` joints. -/
def vertexNumbers (j k : Nat) : List Nat :=
  (List.replicate j [4 * k, 4 * k - 1, 4 * k - 2]).flatten ++
    [4 * k, 4 * k + 1, 4 * k + 2, 4 * k + 1, 4 * k + 2, 4 * k + 3]

/-- The last vertex number of a stroke is the largest that its triangles name. -/
lemma le_of_mem_vertexNumbers {i j k : Nat} (h : i ∈ vertexNumbers j k) : i ≤ 4 * k + 3 := by
  simp only [vertexNumbers, List.mem_append, List.mem_flatten, List.mem_replicate] at h
  rcases h with ⟨l, ⟨-, rfl⟩, hi⟩ | hi <;>
    simp only [List.mem_cons, List.not_mem_nil, or_false] at hi <;> omega

/-- The indices of a stroke are the vertex numbers that its triangles name. -/
lemma map_toNat_toList_triangles (j : Nat) {k : Nat} (h : 4 * k + 3 < maxVertices) :
    ((List.replicate j (Stroke.joint (4 * k)) ++ Stroke.quad (4 * k)).flatMap
      Triangle.toList).map UInt16.toNat = vertexNumbers j k := by
  have hjoint : (Stroke.joint (4 * k)).toList.map UInt16.toNat = [4 * k, 4 * k - 1, 4 * k - 2] :=
    Triangle.map_toNat_toList_ofNats (by omega) (by omega) (by omega)
  have hfirst := Triangle.map_toNat_toList_ofNats (a := 4 * k) (b := 4 * k + 1) (c := 4 * k + 2)
    (by omega) (by omega) (by omega)
  have hsecond := Triangle.map_toNat_toList_ofNats (a := 4 * k + 1) (b := 4 * k + 2)
    (c := 4 * k + 3) (by omega) (by omega) h
  rw [vertexNumbers, ← hjoint, List.map_flatMap]
  simp [Stroke.quad, List.flatMap_replicate, hfirst, hsecond]

/-! ### The triangles of a sequence -/

variable (c : Config) (palette : Palette) (s : Sequence)

/-- The triangles of a sequence, by the numbers of its strokes and their joints. -/
theorem triangles_ofPath_trace :
    (ofPath palette (Path.trace c s)).triangles =
      (List.range s.strokes).flatMap fun k =>
        List.replicate (s.joints k) (Stroke.joint (4 * k)) ++ Stroke.quad (4 * k) := by
  simp only [ofPath, Path.toList_strokes_trace, List.flatMap_def]
  congr 1
  apply List.ext_getElem
  · simp
  · intro k hk _
    have hlt : k < s.leads.length := by simpa using hk
    simp [Stroke.triangles, Stroke.after, Stroke.vertexCount, Sequence.joints_getElem_leads s hlt]

/-- The indices of a sequence, as numbers.

**Proof sketch.** The strokes are numbered below 16384, so the vertex numbers of their triangles are
below the limit, and each triangle keeps its own (`map_toNat_toList_triangles`). -/
theorem map_toNat_indices_ofPath (h : 4 * s.strokes ≤ maxVertices) :
    (ofPath palette (Path.trace c s)).indices.map UInt16.toNat =
      (List.range s.strokes).flatMap fun k => vertexNumbers (s.joints k) k := by
  rw [indices, triangles_ofPath_trace, List.flatMap_assoc, List.map_flatMap]
  apply List.flatMap_congr
  intro k hk
  have hlt : k < s.strokes := List.mem_range.1 hk
  exact map_toNat_toList_triangles _ (by omega)

/-- The number of joint triangles of a sequence. -/
theorem jointCount_ofPath :
    (ofPath palette (Path.trace c s)).jointCount = ((List.range s.strokes).map s.joints).sum := by
  rw [← Sequence.map_joints_leads]
  simp only [ofPath, Stroke.foldr_joints, Path.toList_strokes_trace, List.map_map]
  rfl

/-- The number of triangles of a sequence: two for each stroke, and the joints. -/
theorem triangleCount_ofPath :
    (ofPath palette (Path.trace c s)).triangleCount =
      2 * s.strokes + ((List.range s.strokes).map s.joints).sum := by
  rw [triangleCount, triangles_ofPath_trace, List.length_flatMap]
  simp only [List.length_append, List.length_replicate, Stroke.quad, List.length_cons,
    List.length_nil]
  rw [List.sum_map_add, List.map_const', List.sum_replicate_nat, List.length_range]
  omega

end Mesh

end Ribbon
