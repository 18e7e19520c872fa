import Ribbon.Proofs.Mesh.Builder
import Ribbon.Proofs.Plan.Draw

/-!
# Building a mesh

The mesh of a plan is built in machine words without failing half-way, and its lists have known sizes.

## Main results

* `Ribbon.Plan.build?_eq_draw` — building in machine words gives the mesh, or the error, of drawing.
* `Ribbon.Plan.build_never_fails` — so no operation fails, at any step.
* `Ribbon.Mesh.length_coordinates`, `Ribbon.Mesh.length_channels`, `Ribbon.Mesh.length_indices` —
  the flat lists of any mesh.
* `Ribbon.Plan.draw_sizes` — the lists of the mesh of a sequence.
-/

set_option relaxedAutoImplicit false
set_option autoImplicit false

namespace Ribbon.Plan

/-! ## Drawing never fails half-way

Once a sequence has passed the check of its size, every step of drawing it in machine words succeeds.
Counts and vertex numbers fit, a joint finds the two vertices before it, indices lose nothing, and the
tables of headings and colours have an entry wherever they are read.
-/

/-- The number of vertices of a sequence is a count, unless there are very many strokes. -/
lemma mul?_count {s : Sequence} (h : s.strokes < 2 ^ 62) :
    Word.mul? (UInt64.ofNat s.strokes) 4 = some (UInt64.ofNat (4 * s.strokes)) := by
  rw [Nat.mul_comm]
  apply Word.mul?_ofNat (n := 4) <;> simp only [UInt64.size] <;> omega

/-- **Building in machine words gives what drawing gives**, the mesh or the error.

**Proof sketch.** The number of vertices is a count, so the check is the same. Past the check nothing fails
along the sequence, and what has been built at its end is the mesh of its path. -/
theorem build?_eq_draw (p : Plan) {s : Sequence} (h : s.strokes < 2 ^ 62) :
    p.build? s = some (p.draw s) := by
  have hsegments : Word.count? s.strokes = some (UInt64.ofNat s.strokes) :=
    Word.count?_eq_some (Nat.lt_trans h (by decide))
  have hvertices : (UInt64.ofNat (4 * s.strokes)).toNat = 4 * s.strokes :=
    UInt64.toNat_ofNat_of_lt' (by simp only [UInt64.size]; omega)
  simp only [build?, hsegments, mul?_count h, hvertices, Option.bind_eq_bind, Option.bind_some]
  by_cases hfit : 4 * s.strokes ≤ Mesh.maxVertices
  · rw [checkVertices_of_le hfit, p.draw_eq_ok hfit, Builder.run?_eq p.config s hfit]
    rfl
  · rw [checkVertices_of_lt (Nat.not_le.1 hfit), p.draw_eq_error (Nat.not_le.1 hfit)]
    rfl

/-- What has been built after a part of a sequence that is drawn: four vertices for each stroke, no more
than can be addressed; a proper heading; joints only behind a stroke, and no more than there are turns. -/
lemma run?_invariant (c : Config) {u : Sequence} (h : 4 * u.strokes ≤ Mesh.maxVertices) :
    ∃ b, Builder.run? c u = some b ∧
      b.vertexCount.toNat = 4 * u.strokes ∧ b.vertexCount.toNat ≤ Mesh.maxVertices ∧
      b.turtle.heading < 4 ∧ (b.pending = 0 ∨ 4 ≤ b.vertexCount.toNat) ∧
      b.pending + b.mesh.jointCount ≤ u.turns := by
  have hcount : (Builder.ofPath c (Path.trace c u)).vertexCount.toNat = 4 * u.strokes := by
    rw [Builder.ofPath, Path.size_strokes_trace]
    exact UInt32.toNat_ofNat_of_lt' (Nat.lt_of_le_of_lt h (by decide))
  refine ⟨_, Builder.run?_eq c u h, hcount, hcount ▸ h, Path.heading_trace_lt c u, ?_,
    Builder.pending_add_jointCount_le c u⟩
  rw [hcount]
  by_cases hzero : u.strokes = 0
  · exact Or.inl (Path.pending_trace_eq_zero c hzero)
  · exact Or.inr (by omega)

/-- **Drawing never fails half-way.** For every plan and every sequence with fewer than `2 ^ 62` strokes,
building the mesh in machine words comes to an end with the result of drawing, be it the mesh or the
error of the size check; so no operation fails on the way. After every part `u` of a sequence that is
drawn there are four vertices for each stroke, no more than 65536 in all; the heading is one of the four;
joints are pending only if there are four vertices or more, and joints are no more than turns. Every
palette has a colour at every index, and an array of stops has colours exactly if it makes a palette. -/
theorem build_never_fails :
    (∀ (p : Plan) (s : Sequence), s.strokes < 2 ^ 62 →
      p.build? s = some (p.draw s) ∧
      ∀ (m : Mesh) (u v : Sequence), p.draw s = .ok m → s = u ++ v →
        ∃ b, Builder.run? p.config u = some b ∧
          b.vertexCount.toNat = 4 * u.strokes ∧ b.vertexCount.toNat ≤ 65536 ∧
          b.turtle.heading < 4 ∧ (b.pending = 0 ∨ 4 ≤ b.vertexCount.toNat) ∧
          b.pending + b.mesh.jointCount ≤ u.turns) ∧
    (∀ (q : Palette) (index : Float32),
      Palette.lookup? q.stops index = some (q.colorAt index)) ∧
    ∀ (stops : Array Vec4) (index : Float32),
      Palette.lookup? stops index = (Palette.ofStops? stops).map (·.colorAt index) := by
  refine ⟨?_, Palette.lookup?_stops, Palette.lookup?_eq_map⟩
  intro p s hs
  refine ⟨p.build?_eq_draw hs, ?_⟩
  rintro m u v hdraw rfl
  have hfit : 4 * Sequence.strokes (u ++ v) ≤ Mesh.maxVertices := by
    by_contra hlarge
    rw [p.draw_eq_error (Nat.not_le.1 hlarge)] at hdraw
    cases hdraw
  rw [Sequence.strokes_append] at hfit
  exact run?_invariant p.config (by omega)

/-- Strokes without a bend, between two turns. -/
def straight (n : Nat) : Sequence :=
  .turnRight :: List.replicate n .forwardA ++ [.turnLeft]

/-- Its strokes are those between the turns. -/
lemma strokes_straight (n : Nat) : Sequence.strokes (straight n) = n := by
  simp [straight, Sequence.strokes, Symbol.isForward, List.countP_replicate]

/-- Its turns are the two at the ends. -/
lemma turns_straight (n : Nat) : Sequence.turns (straight n) = 2 := by
  simp [straight, Sequence.turns, Symbol.isForward]

/-- The mesh that needs all the vertices that can be addressed is built without failure. -/
theorem build_never_fails_full :
    Sequence.strokes (straight 16384) < 2 ^ 62 ∧ ∃ m, standard.draw (straight 16384) = .ok m ∧
      standard.build? (straight 16384) = some (.ok m) ∧
      ∃ b, Builder.run? standard.config (straight 16384) = some b ∧
        b.vertexCount.toNat = 65536 ∧ b.turtle.heading < 4 ∧ b.pending + b.mesh.jointCount ≤ 2 := by
  have hstrokes := strokes_straight 16384
  have hlt : Sequence.strokes (straight 16384) < 2 ^ 62 := by
    rw [hstrokes]
    decide
  have hdraw := standard.draw_eq_ok (s := straight 16384) (by rw [hstrokes]; decide)
  obtain ⟨hbuild, hparts⟩ := build_never_fails.1 standard (straight 16384) hlt
  obtain ⟨b, hrun, hcount, -, hheading, -, hjoints⟩ :=
    hparts _ (straight 16384) [] hdraw (List.append_nil _).symm
  rw [hstrokes] at hcount
  rw [turns_straight] at hjoints
  exact ⟨hlt, _, hdraw, hbuild.trans (congrArg some hdraw), b, hrun, hcount, hheading, hjoints⟩

end Ribbon.Plan

namespace Ribbon

/-! ## The sizes of a mesh

Vertices, colours and triangles are listed side by side, stroke by stroke, and laid out flat for
whoever shows them. The lists stay in step: whether a sequence is drawn, and how long each list then
is, can be told from the number of its strokes and of the joints between them.
-/

namespace Mesh

/-! ### Flat lists -/

section

variable (m : Mesh)

/-- A vertex has three coordinates. -/
theorem length_coordinates : m.coordinates.length = 3 * m.vertexCount :=
  length_flatMap_blocks (f := Vec3.toList) (fun _ => rfl) m.positions

/-- A colour has four channels. -/
theorem length_channels : m.channels.length = 4 * m.colors.length :=
  length_flatMap_blocks (f := Vec4.toList) (fun _ => rfl) m.colors

/-- A triangle has three indices. -/
theorem length_indices : m.indices.length = 3 * m.triangleCount :=
  length_flatMap_blocks (f := Triangle.toList) (fun _ => rfl) m.triangles

/-- A mesh shows nothing if and only if it has no vertices. -/
lemma isEmpty_iff : m.isEmpty = true ↔ m.vertexCount = 0 := by
  rw [isEmpty, List.isEmpty_iff, vertexCount, List.length_eq_zero_iff]

end

/-- The indices of a sequence: six for each stroke and three for each joint. -/
lemma length_indices_ofPath (c : Config) (palette : Palette) (s : Sequence) :
    (ofPath palette (Path.trace c s)).indices.length =
      6 * s.strokes + 3 * (ofPath palette (Path.trace c s)).jointCount := by
  rw [length_indices, triangleCount_ofPath, jointCount_ofPath]
  omega

end Mesh

namespace Plan

/-- **The sizes of a mesh.** Whether a sequence is drawn depends on the number of its strokes alone,
however many turns there are among them: one with more than 16384 strokes is refused, with the number
of vertices that it would need, and every other one is drawn. Its mesh has four vertices and four
colours for each stroke, laid out flat with three coordinates for each vertex and four channels for
each colour; six indices for each stroke and three for each joint; and it shows nothing if and only if
there are no strokes. As long as the number of vertices is a 64-bit count, building the mesh in machine
words comes to the same.

**Proof sketch.** The check is that of `draw_eq_error_iff`, and the sizes are those of the mesh of a
path, which has as many strokes as the sequence. -/
theorem draw_sizes (p : Plan) (s : Sequence) :
    (∀ e, p.draw s = .error e ↔
      16384 < s.strokes ∧ e = .indexOverflow (4 * s.strokes) 65536) ∧
    (s.strokes ≤ 16384 → ∃ m, p.draw s = .ok m ∧
      m.positions.length = 4 * s.strokes ∧ m.colors.length = 4 * s.strokes ∧
      m.coordinates.length = 12 * s.strokes ∧ m.channels.length = 16 * s.strokes ∧
      m.indices.length = 6 * s.strokes + 3 * m.jointCount ∧
      (m.isEmpty = true ↔ s.strokes = 0)) ∧
    (s.strokes < 2 ^ 62 → p.build? s = some (p.draw s)) := by
  have hlimit : Mesh.maxVertices < 4 * s.strokes ↔ 16384 < s.strokes := by
    simp only [Mesh.maxVertices]
    omega
  refine ⟨fun e => ?_, fun hfew => ?_, p.build?_eq_draw⟩
  · rw [draw_eq_error_iff, hlimit]
    rfl
  · have hfit : 4 * s.strokes ≤ Mesh.maxVertices := by
      rw [← Nat.not_lt, hlimit]
      omega
    have hvertices := Mesh.vertexCount_ofPath p.config p.config.palette s
    have hcolors := Mesh.length_colors_ofPath p.config p.config.palette s
    refine ⟨_, p.draw_eq_ok hfit, hvertices, hcolors, ?_, ?_,
      Mesh.length_indices_ofPath p.config p.config.palette s, ?_⟩
    · rw [Mesh.length_coordinates, hvertices]
      omega
    · rw [Mesh.length_channels, hcolors]
      omega
    · rw [Mesh.isEmpty_iff, hvertices]
      omega

end Plan

end Ribbon
