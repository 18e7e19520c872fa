import Ribbon.Proofs.Path.Sketch
import Ribbon.Proofs.Plan.Draw

/-!
# What a mesh shows of its plan and its sequence

Two plans may agree on some settings only, and two sequences may differ in symbols that leave no trace.
Their meshes still agree on what does not depend on the difference.

## Main definitions

* `Ribbon.Config.SameShape`, `Ribbon.Config.SameColoring` — settings that agree on one aspect.

## Main results

* `Ribbon.Stroke.outline_after_congr`, `Ribbon.Stroke.colors_after_congr` — the aspects of one stroke.
* `Ribbon.Plan.draw_aspects` — the aspects of the meshes of two plans.
* `Ribbon.Mesh.positions_ofPath_congr`, `Ribbon.Mesh.triangles_ofPath_congr`,
  `Ribbon.Mesh.jointCount_ofPath_congr` — what a mesh shows of a sketch.
* `Ribbon.Plan.draw_unseen` — symbols that leave the mesh of a plan, or its shape, as it is.
-/

set_option relaxedAutoImplicit false
set_option autoImplicit false

namespace Ribbon

/-! ## Shape, colour and triangles do not interfere

The turtle carries its position, its heading and its colour index in one record, but none of them is
ever read to change another. So the settings of a plan split into those that decide where the vertices
lie, step, thickness and origin, and those that decide their colours, palette and colour delta. The
triangles, and whether a sequence is drawn at all, depend on the sequence alone.
-/

section

namespace Config

/-- Two configurations agree on what decides where vertices lie. -/
structure SameShape (c d : Config) : Prop where
  step : c.step = d.step
  thickness : c.thickness = d.thickness
  origin : c.origin = d.origin

/-- Two configurations agree on what decides the colours of vertices. -/
structure SameColoring (c d : Config) : Prop where
  palette : c.palette = d.palette
  colorDelta : c.colorDelta = d.colorDelta

end Config

variable {c d : Config}

/-! ### One stroke -/

/-- Where the turtle stands does not depend on the thickness or on anything that has to do with
colours. -/
lemma Turtle.positionAfter_congr (horigin : c.origin = d.origin) (hstep : c.step = d.step)
    (u : Sequence) : positionAfter c u = positionAfter d u := by
  rw [positionAfter, positionAfter, horigin, hstep]

/-- The colour index does not depend on anything that has to do with the shape. -/
lemma Turtle.colorIndexAfter_congr (h : c.SameColoring d) (u : Sequence) :
    colorIndexAfter c u = colorIndexAfter d u := by
  rw [colorIndexAfter, colorIndexAfter, h.palette, h.colorDelta]

/-- The vertices of a stroke are decided by its lead and the shape. -/
theorem Stroke.outline_after_congr (h : c.SameShape d) (u : Sequence) :
    (after c u).outline = (after d u).outline := by
  have hposition := Turtle.positionAfter_congr h.origin h.step u
  simp only [outline, after, hposition, h.step, h.thickness]

/-- The colours of a stroke are decided by its lead and the colouring. -/
theorem Stroke.colors_after_congr (h : c.SameColoring d) (u : Sequence) :
    (after c u).colors c.palette = (after d u).colors d.palette := by
  have hindex := Turtle.colorIndexAfter_congr h u
  simp only [colors, after, hindex, h.palette]

/-! ### All strokes of a sequence -/

namespace Mesh

variable (s : Sequence)

/-- The vertices of a sequence are decided by the shape. -/
lemma positions_trace_congr (h : c.SameShape d) (p q : Palette) :
    (ofPath p (Path.trace c s)).positions = (ofPath q (Path.trace d s)).positions := by
  rw [positions_ofPath_trace, positions_ofPath_trace]
  exact List.flatMap_congr fun u _ => Stroke.outline_after_congr h u

/-- The colours of a sequence are decided by the colouring. -/
lemma colors_trace_congr (h : c.SameColoring d) :
    (ofPath c.palette (Path.trace c s)).colors = (ofPath d.palette (Path.trace d s)).colors := by
  rw [colors_ofPath_trace, colors_ofPath_trace]
  exact List.flatMap_congr fun u _ => Stroke.colors_after_congr h u

variable (c d) in
/-- The indices of a sequence are decided by the sequence. -/
lemma indices_trace_congr (p q : Palette) :
    (ofPath p (Path.trace c s)).indices = (ofPath q (Path.trace d s)).indices := by
  rw [indices, indices, triangles_ofPath_trace, triangles_ofPath_trace]

variable (c d) in
/-- The joints of a sequence are counted alike. -/
lemma jointCount_trace_congr (p q : Palette) :
    (ofPath p (Path.trace c s)).jointCount = (ofPath q (Path.trace d s)).jointCount := by
  rw [jointCount_ofPath, jointCount_ofPath]

end Mesh

/-! ### Two plans -/

namespace Plan

/-- **Shape, colour and triangles do not interfere.** Of any two plans, either both refuse a sequence
with the same error, or both draw it. Then their meshes have the same indices and as many joints; the
same positions if the plans agree on step, thickness and origin; and the same colours if they agree on
palette and colour delta. Nothing else about the plans matters, neither the seed nor the generations
nor the settings of another aspect. -/
theorem draw_aspects (p q : Plan) (s : Sequence) :
    (∃ e, p.draw s = .error e ∧ q.draw s = .error e) ∨
      ∃ m n, p.draw s = .ok m ∧ q.draw s = .ok n ∧
        m.indices = n.indices ∧ m.jointCount = n.jointCount ∧
        (p.config.SameShape q.config → m.positions = n.positions) ∧
        (p.config.SameColoring q.config → m.colors = n.colors) := by
  by_cases hfit : 4 * s.strokes ≤ Mesh.maxVertices
  · refine .inr ⟨_, _, p.draw_eq_ok hfit, q.draw_eq_ok hfit, ?_, ?_, ?_, ?_⟩
    · exact Mesh.indices_trace_congr _ _ s _ _
    · exact Mesh.jointCount_trace_congr _ _ s _ _
    · exact fun h => Mesh.positions_trace_congr s h _ _
    · exact fun h => Mesh.colors_trace_congr s h
  · have hlarge := Nat.not_le.1 hfit
    exact .inl ⟨_, p.draw_eq_error hlarge, q.draw_eq_error hlarge⟩

/-- A plan with the shape of the standard one, but with a seed, generations, a palette and a colour
delta of its own. -/
def repainted : Plan where
  config :=
    { Config.standard with
      seed := "L+L"
      generations := 1
      palette := ⟨#[⟨0, 0, 0, 1⟩, ⟨1, 1, 1, 1⟩], by decide⟩
      colorDelta := 0.5 }
  seed := [.forwardA, .turnLeft, .forwardA]
  valid := by decide +kernel
  spelled := by decide +kernel

/-- A plan with the colouring of the standard one, but with another shape. -/
def reshaped : Plan where
  config := { Config.standard with step := 0.25, thickness := 0, origin := ⟨0, 0⟩ }
  seed := [.turnRight, .forwardB]
  valid := by decide +kernel
  spelled := by decide +kernel

/-- The same bend in other colours lies where it did, and in another place it has the same colours. -/
theorem draw_aspects_bent :
    standard.config.SameShape repainted.config ∧ standard.config.SameColoring reshaped.config ∧
      ∃ m n o, standard.draw bent = .ok m ∧ repainted.draw bent = .ok n ∧
        reshaped.draw bent = .ok o ∧ m.positions = n.positions ∧ m.colors = o.colors ∧
        m.indices = n.indices ∧ m.indices = o.indices ∧
        m.colors ≠ n.colors ∧ m.positions ≠ o.positions := by
  have hshape : standard.config.SameShape repainted.config := ⟨rfl, rfl, rfl⟩
  have hcoloring : standard.config.SameColoring reshaped.config := ⟨rfl, rfl⟩
  have hdraw := standard.draw_eq_ok (s := bent) (by decide)
  obtain ⟨e, he, -⟩ | ⟨m, n, hm, hn, hindices, -, hpositions, -⟩ :=
    draw_aspects standard repainted bent
  · rw [hdraw] at he
    cases he
  obtain ⟨e, he, -⟩ | ⟨m', o, hm', ho, hindices', -, -, hcolors⟩ :=
    draw_aspects standard reshaped bent
  · rw [hdraw] at he
    cases he
  obtain rfl : m = m' := Except.ok.inj (hm.symm.trans hm')
  refine ⟨hshape, hcoloring, m, n, o, hm, hn, ho, hpositions hshape, hcolors hcoloring, hindices,
    hindices', ?_, ?_⟩
  · rw [standard.eq_ofPath_of_draw hm, repainted.eq_ofPath_of_draw hn]
    decide +kernel
  · rw [standard.eq_ofPath_of_draw hm, reshaped.eq_ofPath_of_draw ho]
    decide +kernel

end Plan

end

/-! ## Symbols that a mesh does not show

A mesh shows the strokes of a path. So it shows no turns after the last stroke, does not tell the
two strokes apart, and shows whole turns before the first stroke by its colours alone.
-/

/-! ### The mesh of a sketch -/

namespace Mesh

variable (palette : Palette)

/-- A mesh shows the strokes of a path. -/
lemma ofPath_congr {p q : Path} (h : p.strokes = q.strokes) :
    ofPath palette p = ofPath palette q := by
  rw [ofPath, ofPath, h]

section

variable (p : Path)

/-- The vertices of a path lie where those of its sketch do. -/
lemma positions_ofPath_sketch :
    (ofPath palette p.sketch).positions = (ofPath palette p).positions := by
  simp only [ofPath, Path.sketch, Array.toList_map, List.flatMap_map]
  rfl

/-- The triangles of a path are those of its sketch. -/
lemma triangles_ofPath_sketch :
    (ofPath palette p.sketch).triangles = (ofPath palette p).triangles := by
  simp only [ofPath, Path.sketch, Array.toList_map, List.zipIdx_map, List.flatMap_map]
  rfl

/-- A path has as many joints as its sketch. -/
lemma jointCount_ofPath_sketch :
    (ofPath palette p.sketch).jointCount = (ofPath palette p).jointCount := by
  simp only [ofPath, Path.sketch, Array.toList_map, List.foldr_map]
  rfl

end

variable {p q : Path} (h : p.sketch = q.sketch)

include h

/-- The vertices of a mesh are decided by the sketch of its path. -/
theorem positions_ofPath_congr : (ofPath palette p).positions = (ofPath palette q).positions := by
  rw [← positions_ofPath_sketch, h, positions_ofPath_sketch]

/-- The triangles of a mesh are decided by the sketch of its path. -/
theorem triangles_ofPath_congr : (ofPath palette p).triangles = (ofPath palette q).triangles := by
  rw [← triangles_ofPath_sketch, h, triangles_ofPath_sketch]

/-- The indices of a mesh are decided by the sketch of its path. -/
lemma indices_ofPath_congr : (ofPath palette p).indices = (ofPath palette q).indices := by
  rw [indices, indices, triangles_ofPath_congr palette h]

/-- The joints of a mesh are decided by the sketch of its path. -/
theorem jointCount_ofPath_congr :
    (ofPath palette p).jointCount = (ofPath palette q).jointCount := by
  rw [← jointCount_ofPath_sketch, h, jointCount_ofPath_sketch]

end Mesh

/-! ### The mesh of a plan -/

namespace Plan

/-- Sequences with as many strokes and the same mesh along their paths are drawn alike. -/
lemma draw_congr (p : Plan) {s t : Sequence} (hstrokes : s.strokes = t.strokes)
    (hmesh : Mesh.ofPath p.config.palette (p.trace s) = Mesh.ofPath p.config.palette (p.trace t)) :
    p.draw s = p.draw t := by
  rw [draw, draw, hstrokes, hmesh]

/-- **Symbols that a mesh does not show.** A plan draws a sequence as it draws

* the sequence with any turns at its end, and
* the sequence with the two strokes exchanged wherever one likes,

with the same mesh or the same error. With turns at the beginning that add up to whole ones, either
both sequences are refused with the same error or both are drawn, with the same positions and indices
and as many joints, so that nothing but the colours may differ.

**Proof sketch.** In each case the number of strokes is the same, and so is the check. Turns at the
end leave the strokes of the path as they are, and so does an exchange. Whole turns at the beginning
leave its sketch as it is, which is all that positions and indices depend on. -/
theorem draw_unseen (p : Plan) (s : Sequence) :
    (∀ t : Sequence, t.strokes = 0 → p.draw (s ++ t) = p.draw s) ∧
      (∀ chosen : Nat → Bool, p.draw (s.exchangeAt chosen) = p.draw s) ∧
      ∀ u : Sequence, u.strokes = 0 → u.rotation % 4 = 0 →
        (∃ e, p.draw (u ++ s) = .error e ∧ p.draw s = .error e) ∨
          ∃ m n, p.draw (u ++ s) = .ok m ∧ p.draw s = .ok n ∧
            m.positions = n.positions ∧ m.indices = n.indices ∧ m.jointCount = n.jointCount := by
  refine ⟨fun t ht => ?_, fun chosen => ?_, fun u hu hwhole => ?_⟩
  · have hstrokes : Sequence.strokes (s ++ t) = s.strokes := by
      rw [Sequence.strokes_append, ht, Nat.add_zero]
    exact p.draw_congr hstrokes
      (Mesh.ofPath_congr _ (Path.strokes_trace_append p.config s ht))
  · exact p.draw_congr (s.strokes_exchangeAt chosen)
      (congrArg (Mesh.ofPath _) (Path.trace_exchangeAt p.config s chosen))
  · have hstrokes : Sequence.strokes (u ++ s) = s.strokes := by
      rw [Sequence.strokes_append, hu, Nat.zero_add]
    have hsketch := Path.sketch_trace_append p.config s hu hwhole
    by_cases hfit : 4 * s.strokes ≤ Mesh.maxVertices
    · refine .inr ⟨_, _, p.draw_eq_ok (hstrokes ▸ hfit), p.draw_eq_ok hfit, ?_, ?_, ?_⟩
      · exact Mesh.positions_ofPath_congr _ hsketch
      · exact Mesh.indices_ofPath_congr _ hsketch
      · exact Mesh.jointCount_ofPath_congr _ hsketch
    · have hlarge := Nat.not_le.1 hfit
      have herror := p.draw_eq_error (s := u ++ s) (hstrokes ▸ hlarge)
      rw [hstrokes] at herror
      exact .inl ⟨_, herror, p.draw_eq_error hlarge⟩

/-- A bend with a whole turn before it lies where it did, in other colours. It is the same bend with
strokes of one kind only, and with one more turn behind it. -/
theorem draw_unseen_bent :
    let whole : Sequence := List.replicate 4 .turnRight
    let alike : Sequence := [.turnLeft, .forwardA, .turnRight, .turnLeft, .forwardA, .turnRight]
    ∃ m n, standard.draw (whole ++ bent) = .ok m ∧ standard.draw bent = .ok n ∧
      m.positions = n.positions ∧ m.indices = n.indices ∧ m.jointCount = n.jointCount ∧
      m.colors ≠ n.colors ∧ standard.draw alike = .ok n ∧
      standard.draw (bent ++ [Symbol.turnLeft]) = .ok n := by
  intro whole alike
  have hdraw := standard.draw_eq_ok (s := bent) (by decide)
  obtain ⟨hend, hexchange, hbeginning⟩ := draw_unseen standard bent
  have halike : Sequence.exchangeAt bent (· == 4) = alike := by decide
  obtain ⟨e, -, he⟩ | ⟨m, n, hm, hn, hpositions, hindices, hjoints⟩ :=
    hbeginning whole (by decide) (by decide)
  · rw [hdraw] at he
    cases he
  · refine ⟨m, n, hm, hn, hpositions, hindices, hjoints, ?_, ?_, ?_⟩
    · rw [standard.eq_ofPath_of_draw hm, standard.eq_ofPath_of_draw hn]
      decide +kernel
    · rw [← halike, hexchange, hn]
    · rw [hend _ (by decide), hn]

end Plan

end Ribbon
