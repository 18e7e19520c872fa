import Mathlib.Data.List.Induction
import Ribbon.Plan
import Ribbon.Proofs.Mesh.Strokes

/-!
# Drawing in machine words

The mesh of a sequence, built symbol by symbol with counts of 64 bits, vertex numbers of 32 bits and
indices of 16 bits, by operations that fail where a number does not fit, a difference is negative, a
modulus is zero or a table has no such entry. As long as the vertices can be addressed no operation
fails, and the mesh is the one of the path. Joints are counted exactly; there are never more of them
than turns, so their number fits wherever the length of the sequence does.

## Main definitions

* `Ribbon.Word` — arithmetic that may fail.
* `Ribbon.Palette.lookup?` — the colour at an index, from any array of stops.
* `Ribbon.Builder` — a mesh that is being built, `Ribbon.Builder.follow?` one symbol further.
* `Ribbon.Plan.build?` — the mesh of a sequence, built in this way.

## Main results

* `Ribbon.Palette.lookup?_stops` — a palette has a colour at every index.
* `Ribbon.Builder.follow?_ofPath` — one symbol further nothing fails.
* `Ribbon.Builder.run?_eq` — nothing fails along a sequence whose vertices can be addressed.
* `Ribbon.Builder.pending_add_jointCount_le` — joints are no more than turns.
-/

set_option relaxedAutoImplicit false
set_option autoImplicit false

namespace Ribbon

/-! ## Arithmetic that may fail -/

namespace Word

/-- A number as a 64-bit count. -/
def count? (n : Nat) : Option UInt64 :=
  if n < UInt64.size then some n.toUInt64 else none

/-- The product of two counts, if it is one. -/
def mul? (m n : UInt64) : Option UInt64 :=
  if m.toNat * n.toNat < UInt64.size then some (m * n) else none

/-- The sum of two vertex numbers, if it is one. -/
def add? (m n : UInt32) : Option UInt32 :=
  if m.toNat + n.toNat < UInt32.size then some (m + n) else none

/-- The difference of two vertex numbers, if it is not negative. -/
def sub? (m n : UInt32) : Option UInt32 :=
  if n ≤ m then some (m - n) else none

/-- A vertex number as an index, if 16 bits can hold it. -/
def index? (n : UInt32) : Option UInt16 :=
  if n.toNat < UInt16.size then some n.toUInt16 else none

/-- The remainder of a division, if it is not by zero. -/
def mod? (m n : Nat) : Option Nat :=
  if n = 0 then none else some (m % n)

variable {m n : Nat}

/-- A sequence has a count if 64 bits can hold it. -/
lemma count?_eq_some (h : n < UInt64.size) : count? n = some (UInt64.ofNat n) :=
  if_pos h

/-- Counts whose product fits are multiplied. -/
lemma mul?_ofNat (h : m * n < UInt64.size) (hm : m < UInt64.size) (hn : n < UInt64.size) :
    mul? (UInt64.ofNat m) (UInt64.ofNat n) = some (UInt64.ofNat (m * n)) := by
  rw [mul?, UInt64.toNat_ofNat_of_lt' hm, UInt64.toNat_ofNat_of_lt' hn, if_pos h, UInt64.ofNat_mul]

/-- Vertex numbers whose sum fits are added. -/
lemma add?_ofNat (h : m + n < UInt32.size) :
    add? (UInt32.ofNat m) (UInt32.ofNat n) = some (UInt32.ofNat (m + n)) := by
  have hm : m < UInt32.size := Nat.lt_of_le_of_lt (Nat.le_add_right m n) h
  have hn : n < UInt32.size := Nat.lt_of_le_of_lt (Nat.le_add_left n m) h
  rw [add?, UInt32.toNat_ofNat_of_lt' hm, UInt32.toNat_ofNat_of_lt' hn, if_pos h, UInt32.ofNat_add]

/-- A vertex number is subtracted from one that is not smaller. -/
lemma sub?_ofNat (hm : m < UInt32.size) (h : n ≤ m) :
    sub? (UInt32.ofNat m) (UInt32.ofNat n) = some (UInt32.ofNat (m - n)) := by
  have hle : UInt32.ofNat n ≤ UInt32.ofNat m := by
    rw [UInt32.le_iff_toNat_le, UInt32.toNat_ofNat_of_lt' hm,
      UInt32.toNat_ofNat_of_lt' (Nat.lt_of_le_of_lt h hm)]
    exact h
  rw [sub?, if_pos hle, UInt32.ofNat_sub h]

/-- A vertex number that can be addressed is an index. -/
lemma index?_ofNat (h : n < Mesh.maxVertices) : index? (UInt32.ofNat n) = some n.toUInt16 := by
  have hn : (UInt32.ofNat n).toNat = n := UInt32.toNat_ofNat_of_lt' (Nat.lt_trans h (by decide))
  have hcast : (UInt32.ofNat n).toUInt16 = (UInt32.ofNat n).toNat.toUInt16 := rfl
  rw [index?, hcast, hn]
  exact if_pos h

/-- A division by a positive number has a remainder. -/
lemma mod?_eq_some (h : 0 < n) : mod? m n = some (m % n) :=
  if_neg (Nat.pos_iff_ne_zero.1 h)

end Word

/-! ## Looking up a colour -/

namespace Palette

/-- The colour at an index, from any array of stops. -/
def lookup? (stops : Array Vec4) (index : Float32) : Option Vec4 := do
  let wrapped := Binary32.wrap index stops.size.toUInt64.toFloat32
  let whole := Binary32.floor wrapped
  let lower ← Word.mod? whole.toUInt64.toNat stops.size
  let upper ← Word.mod? (lower + 1) stops.size
  return blend (← stops[lower]?) (← stops[upper]?) (wrapped - whole)

/-- A stop is found by its number, counted around the cycle. -/
lemma getElem?_stops (p : Palette) (n : Nat) : p.stops[n % p.stops.size]? = some (p.stop n) :=
  Array.getElem?_eq_getElem (Nat.mod_lt n p.size_pos)

/-- **A palette has a colour at every index**, infinities and NaN included. -/
theorem lookup?_stops (p : Palette) (index : Float32) :
    lookup? p.stops index = some (p.colorAt index) := by
  simp only [lookup?, Word.mod?_eq_some p.size_pos, getElem?_stops, Option.bind_eq_bind,
    Option.bind_some, Option.pure_def]
  rfl

/-- There is a colour exactly if the stops make a palette. -/
lemma lookup?_eq_map (stops : Array Vec4) (index : Float32) :
    lookup? stops index = (ofStops? stops).map (·.colorAt index) := by
  by_cases h : 0 < stops.size
  · rw [ofStops?, dif_pos h]
    exact lookup?_stops ⟨stops, h⟩ index
  · obtain rfl : stops = #[] := Array.eq_empty_of_size_eq_zero (by omega)
    rfl

end Palette

/-! ## Looking up a heading -/

namespace Turtle

/-- A proper heading has a side. -/
lemma perpendicular?_of_lt {t : Turtle} (h : t.heading < 4) :
    t.perpendicular? = some t.facing.perpendicular := by
  have hf : t.facing = ⟨t.heading, h⟩ := Fin.ext (Nat.mod_eq_of_lt h)
  simp [perpendicular?, heading?, h, hf]

end Turtle

/-! ## One stroke more -/

/-- A stroke more adds its vertices, its colours and its triangles at the end of a mesh. -/
lemma Mesh.ofPath_push (palette : Palette) {p q : Path} {stroke : Stroke}
    (h : q.strokes = p.strokes.push stroke) :
    ofPath palette q =
      { positions := (ofPath palette p).positions ++ stroke.outline
        colors := (ofPath palette p).colors ++ stroke.colors palette
        triangles := (ofPath palette p).triangles ++ stroke.triangles p.strokes.size
        jointCount := (ofPath palette p).jointCount + stroke.joints } := by
  simp only [ofPath, h, Array.toList_push, List.flatMap_append, List.zipIdx_append,
    Stroke.foldr_joints, List.map_append, List.sum_append]
  simp

/-! ## Building a mesh -/

/-- A mesh that is being built. -/
structure Builder where
  turtle : Turtle
  mesh : Mesh
  /-- The number of vertices so far. -/
  vertexCount : UInt32
  /-- The number of turns since the last stroke, if there is one. -/
  pending : Nat

namespace Builder

/-- Before the first symbol. -/
def start (c : Config) : Builder where
  turtle := Turtle.inCell c.origin c.step
  mesh := ⟨[], [], [], 0⟩
  vertexCount := 0
  pending := 0

/-- The joint triangle of a stroke whose first vertex has the number `base`. -/
def joint? (base : UInt32) : Option Triangle := do
  return ⟨← Word.index? base, ← Word.index? (← Word.sub? base 1),
    ← Word.index? (← Word.sub? base 2)⟩

/-- The triangles that fill a stroke whose first vertex has the number `base`. -/
def quad? (base : UInt32) : Option (List Triangle) := do
  let first ← Word.index? base
  let second ← Word.index? (← Word.add? base 1)
  let third ← Word.index? (← Word.add? base 2)
  let fourth ← Word.index? (← Word.add? base 3)
  return [⟨first, second, third⟩, ⟨second, third, fourth⟩]

/-- After a stroke: the pending joints are written, the turtle goes ahead, and the stroke is filled. -/
def stroke? (c : Config) (b : Builder) : Option Builder := do
  let joints ← (List.replicate b.pending b.vertexCount).mapM joint?
  let turtle ← b.turtle.advance? c.step
  let side ← turtle.perpendicular?
  let color ← Palette.lookup? c.palette.stops turtle.colorIndex
  let quad ← quad? b.vertexCount
  let vertexCount ← Word.add? b.vertexCount 4
  let stroke : Stroke :=
    { start := b.turtle.position
      finish := turtle.position
      side := side.scale (Path.halfWidth c)
      colorIndex := turtle.colorIndex
      joints := b.pending }
  return {
    turtle := turtle
    mesh := {
      positions := b.mesh.positions ++ stroke.outline
      colors := b.mesh.colors ++ List.replicate Stroke.vertexCount color
      triangles := b.mesh.triangles ++ (joints ++ quad)
      jointCount := b.mesh.jointCount + joints.length }
    vertexCount := vertexCount
    pending := 0 }

/-- After a turn that leaves the turtle as `t`, with its colour index still to be moved. -/
def turn (c : Config) (b : Builder) (t : Turtle) : Builder :=
  { b with
    turtle := { t with colorIndex := c.palette.shift t.colorIndex c.colorDelta }
    pending := if 2 ≤ b.vertexCount then b.pending + 1 else b.pending }

/-- After one more symbol. -/
def follow? (c : Config) (b : Builder) (s : Symbol) : Option Builder :=
  match s.move with
  | .forward => b.stroke? c
  | .turnLeft => some (b.turn c b.turtle.turnLeft)
  | .turnRight => some (b.turn c b.turtle.turnRight)

/-- After a sequence. -/
def run? (c : Config) (s : Sequence) : Option Builder :=
  s.foldlM (follow? c) (start c)

/-! ## No operation fails -/

/-- What has been built along a path. -/
def ofPath (c : Config) (p : Path) : Builder where
  turtle := p.turtle
  mesh := Mesh.ofPath c.palette p
  vertexCount := UInt32.ofNat (4 * p.strokes.size)
  pending := p.pending

section

variable {n : Nat}

/-- Behind another stroke the vertices of a joint can be named. -/
lemma joint?_eq (hpos : 0 < n) (h : 4 * n < Mesh.maxVertices) :
    joint? (UInt32.ofNat (4 * n)) = some (Stroke.joint (4 * n)) := by
  have hsize : 4 * n < UInt32.size := Nat.lt_trans h (by decide)
  have hone : Word.sub? (UInt32.ofNat (4 * n)) 1 = some (UInt32.ofNat (4 * n - 1)) :=
    Word.sub?_ofNat (n := 1) hsize (by omega)
  have htwo : Word.sub? (UInt32.ofNat (4 * n)) 2 = some (UInt32.ofNat (4 * n - 2)) :=
    Word.sub?_ofNat (n := 2) hsize (by omega)
  simp only [joint?, hone, htwo, Word.index?_ofNat h,
    Word.index?_ofNat (Nat.lt_of_le_of_lt (Nat.sub_le _ _) h), Option.bind_eq_bind,
    Option.bind_some, Option.pure_def]
  rfl

/-- Joints are pending only behind another stroke, and then they can be written. -/
lemma joints?_eq {j : Nat} (hpending : n = 0 → j = 0) (h : 4 * n < Mesh.maxVertices) :
    (List.replicate j (UInt32.ofNat (4 * n))).mapM joint? =
      some (List.replicate j (Stroke.joint (4 * n))) := by
  induction j with
  | zero => rfl
  | succ j ih =>
    have hpos : 0 < n := by omega
    rw [List.replicate_succ, List.mapM_cons, joint?_eq hpos h, ih (by omega)]
    rfl

/-- The vertices of a stroke can be named. -/
lemma quad?_eq (h : 4 * n + 3 < Mesh.maxVertices) :
    quad? (UInt32.ofNat (4 * n)) = some (Stroke.quad (4 * n)) := by
  have hadd (j : Nat) (hj : j ≤ 3) :
      Word.add? (UInt32.ofNat (4 * n)) (UInt32.ofNat j) = some (UInt32.ofNat (4 * n + j)) := by
    apply Word.add?_ofNat
    simp only [Mesh.maxVertices] at h
    simp only [UInt32.size]
    omega
  have hone : Word.add? (UInt32.ofNat (4 * n)) 1 = some (UInt32.ofNat (4 * n + 1)) :=
    hadd 1 (by decide)
  have htwo : Word.add? (UInt32.ofNat (4 * n)) 2 = some (UInt32.ofNat (4 * n + 2)) :=
    hadd 2 (by decide)
  have hthree : Word.add? (UInt32.ofNat (4 * n)) 3 = some (UInt32.ofNat (4 * n + 3)) :=
    hadd 3 (by decide)
  have hindex (j : Nat) (hj : j ≤ 3) :
      Word.index? (UInt32.ofNat (4 * n + j)) = some (4 * n + j).toUInt16 :=
    Word.index?_ofNat (by omega)
  simp only [quad?, hone, htwo, hthree, Word.index?_ofNat (n := 4 * n) (by omega),
    hindex 1 (by decide), hindex 2 (by decide), hindex 3 (by decide), Option.bind_eq_bind,
    Option.bind_some, Option.pure_def]
  rfl

end

variable (c : Config)

/-- **A stroke further nothing fails**, if the vertices of the stroke can be addressed. -/
lemma stroke?_ofPath {p : Path} (hheading : p.turtle.heading < 4)
    (hpending : p.strokes.size = 0 → p.pending = 0)
    (hfit : 4 * p.strokes.size + 4 ≤ Mesh.maxVertices) :
    (ofPath c p).stroke? c = some (ofPath c (p.draw c)) := by
  have hjoints := joints?_eq hpending (show 4 * p.strokes.size < Mesh.maxVertices by omega)
  have hquad := quad?_eq (show 4 * p.strokes.size + 3 < Mesh.maxVertices by omega)
  have hadvance := Turtle.advance?_of_lt hheading c.step
  have hside : (p.turtle.advance c.step).perpendicular? = _ := Turtle.perpendicular?_of_lt hheading
  have hcolor := Palette.lookup?_stops c.palette (p.turtle.advance c.step).colorIndex
  have hcount : Word.add? (UInt32.ofNat (4 * p.strokes.size)) 4 =
      some (UInt32.ofNat (4 * p.strokes.size + 4)) :=
    Word.add?_ofNat (n := 4) (Nat.lt_of_le_of_lt hfit (by decide))
  simp only [stroke?, ofPath, hjoints, hquad, hadvance, hside, hcolor, hcount, Option.bind_eq_bind,
    Option.bind_some, Option.pure_def]
  have hmesh := Mesh.ofPath_push c.palette (p := p) (q := p.draw c) rfl
  have hsize : (p.draw c).strokes.size = p.strokes.size + 1 := Array.size_push _
  rw [hmesh, hsize, Nat.mul_add_one, List.length_replicate]
  rfl

/-- A turn is the turn of the path. -/
lemma turn_ofPath {p : Path} (t : Turtle) (hpending : p.strokes.size = 0 → p.pending = 0)
    (hfit : 4 * p.strokes.size ≤ Mesh.maxVertices) :
    (ofPath c p).turn c t = ofPath c (p.turn c t) := by
  have hsize : (UInt32.ofNat (4 * p.strokes.size)).toNat = 4 * p.strokes.size :=
    UInt32.toNat_ofNat_of_lt' (Nat.lt_of_le_of_lt hfit (by decide))
  have htwo : (2 : UInt32).toNat = 2 := rfl
  -- two vertices are there as soon as there is a stroke
  have hjoin : 2 ≤ UInt32.ofNat (4 * p.strokes.size) ↔ p.strokes.size ≠ 0 := by
    rw [UInt32.le_iff_toNat_le, hsize, htwo]
    omega
  have hcount : (if 2 ≤ UInt32.ofNat (4 * p.strokes.size) then p.pending + 1 else p.pending) =
      if p.strokes.isEmpty then 0 else p.pending + 1 := by
    by_cases h : p.strokes.size = 0
    · rw [if_neg (fun hle => hjoin.1 hle h), if_pos (Array.isEmpty_iff_size_eq_zero.2 h), hpending h]
    · rw [if_pos (hjoin.2 h), if_neg (fun hempty => h (Array.isEmpty_iff_size_eq_zero.1 hempty))]
  rw [turn, ofPath]
  dsimp only
  rw [hcount]
  rfl

/-- **One symbol further nothing fails**, if the vertices up to there can be addressed. -/
theorem follow?_ofPath {p : Path} (a : Symbol) (hheading : p.turtle.heading < 4)
    (hpending : p.strokes.size = 0 → p.pending = 0)
    (hfit : 4 * (p.follow c a).strokes.size ≤ Mesh.maxVertices) :
    (ofPath c p).follow? c a = some (ofPath c (p.follow c a)) := by
  cases a with
  | forwardA | forwardB =>
    apply stroke?_ofPath c hheading hpending
    have hsize : (p.draw c).strokes.size = p.strokes.size + 1 := Array.size_push _
    have hfit' : 4 * (p.draw c).strokes.size ≤ Mesh.maxVertices := hfit
    omega
  | turnLeft => exact congrArg some (turn_ofPath c p.turtle.turnLeft hpending hfit)
  | turnRight => exact congrArg some (turn_ofPath c p.turtle.turnRight hpending hfit)

/-- **Nothing fails along a sequence whose vertices can be addressed**, and what has been built at its
end is what its path shows.

**Proof sketch.** Induction from the end of the sequence. The path so far has a proper heading, and
pending joints only behind a stroke; so one symbol further nothing fails either. -/
theorem run?_eq (s : Sequence) (hfit : 4 * s.strokes ≤ Mesh.maxVertices) :
    run? c s = some (ofPath c (Path.trace c s)) := by
  induction s using List.reverseRecOn with
  | nil => rfl
  | append_singleton s a ih =>
    have hfit' : 4 * Sequence.strokes s ≤ Mesh.maxVertices := by
      rw [Sequence.strokes_append] at hfit
      omega
    have hnext : Path.trace c (s ++ [a]) = (Path.trace c s).follow c a := Path.trace_append c s [a]
    rw [run?, List.foldlM_append]
    rw [run?] at ih
    rw [ih hfit', hnext, Option.bind_eq_bind, Option.bind_some, List.foldlM_cons]
    rw [follow?_ofPath c a (Path.heading_trace_lt c s)]
    · rfl
    · rw [Path.size_strokes_trace]
      exact Path.pending_trace_eq_zero c
    · rw [← hnext, Path.size_strokes_trace]
      exact hfit

/-- A turn is one more joint at most, and a stroke is none. -/
lemma pending_add_jointCount_follow_le (p : Path) (a : Symbol) :
    (p.follow c a).pending + (Mesh.ofPath c.palette (p.follow c a)).jointCount ≤
      p.pending + (Mesh.ofPath c.palette p).jointCount + Sequence.turns [a] := by
  have hturn (t : Turtle) :
      (p.turn c t).pending + (Mesh.ofPath c.palette (p.turn c t)).jointCount ≤
        p.pending + (Mesh.ofPath c.palette p).jointCount + 1 := by
    have hmesh : Mesh.ofPath c.palette (p.turn c t) = Mesh.ofPath c.palette p := rfl
    have hpending : (p.turn c t).pending ≤ p.pending + 1 := by
      rw [Path.turn]
      dsimp only
      split <;> omega
    rw [hmesh]
    omega
  cases a with
  | forwardA | forwardB =>
    have hmesh := Mesh.ofPath_push c.palette (p := p) (q := p.draw c) rfl
    have hcount : (Mesh.ofPath c.palette (p.draw c)).jointCount =
        (Mesh.ofPath c.palette p).jointCount + p.pending := congrArg Mesh.jointCount hmesh
    have hpending : (p.draw c).pending = 0 := rfl
    simp only [Path.follow, Symbol.move, hcount, hpending]
    omega
  | turnLeft => exact hturn p.turtle.turnLeft
  | turnRight => exact hturn p.turtle.turnRight

/-- Joints are turns: the pending ones and those that are written. -/
theorem pending_add_jointCount_le (s : Sequence) :
    (Path.trace c s).pending + (Mesh.ofPath c.palette (Path.trace c s)).jointCount ≤ s.turns := by
  induction s using List.reverseRecOn with
  | nil => exact Nat.le_refl _
  | append_singleton s a ih =>
    have hnext : Path.trace c (s ++ [a]) = (Path.trace c s).follow c a := Path.trace_append c s [a]
    have hstep := pending_add_jointCount_follow_le c (Path.trace c s) a
    rw [hnext, Sequence.turns_append]
    omega

end Builder

/-- The mesh of a sequence, built in machine words. -/
def Plan.build? (p : Plan) (s : Sequence) : Option (Except Error Mesh) := do
  let segments ← Word.count? s.strokes
  let vertices ← Word.mul? segments 4
  match checkVertices vertices.toNat with
  | .error cause => return .error cause
  | .ok () => return .ok (← Builder.run? p.config s).mesh

end Ribbon
