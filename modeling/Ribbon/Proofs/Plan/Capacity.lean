import Ribbon.Plan
import Ribbon.Proofs.Mesh.Strokes
import Ribbon.Proofs.Sequence.Census

/-!
# The size of a mesh is known before it is drawn

A plan checks the size of its mesh twice: by the census before the seed is grown, and by counting the
strokes of the grown seed. Both checks come to the same answer, so a mesh that fits is never refused
and no seed is grown in vain.

## Main results

* `Ribbon.Plan.draw_eq_ok_iff`, `Ribbon.Plan.draw_eq_error_iff` — which sequences are drawn, and
  which are refused.
* `Ribbon.Plan.vertexDemand_eq_min` — the census gives the size of the mesh, up to the largest
  count.
* `Ribbon.Plan.drawGrown_agrees_with_checkSize` — the two checks agree.
-/

set_option relaxedAutoImplicit false
set_option autoImplicit false

namespace Ribbon.Plan

/-- Every plan is the plan of its configuration. -/
lemma ofConfig_config (p : Plan) : ofConfig p.config = .ok p := by
  obtain ⟨c, seed, hvalid, hspelled⟩ := p
  simp only [ofConfig]
  split
  · next cause hv => rw [hvalid] at hv; cases hv
  · split
    · next cause hs => rw [hspelled] at hs; cases hs
    · next t hs =>
      rw [hspelled] at hs
      cases hs
      rfl

/-! ## The check of a drawing -/

section

variable {n : Nat}

/-- As many vertices as can be addressed pass the check. -/
lemma checkVertices_of_le (h : n ≤ Mesh.maxVertices) : checkVertices n = .ok () :=
  if_neg (Nat.not_lt.2 h)

/-- More vertices than can be addressed are refused. -/
lemma checkVertices_of_lt (h : Mesh.maxVertices < n) :
    checkVertices n = .error (.indexOverflow n Mesh.maxVertices) :=
  if_pos h

/-- The check passes exactly the numbers of vertices that can be addressed. -/
lemma checkVertices_eq_ok_iff : checkVertices n = .ok () ↔ n ≤ Mesh.maxVertices := by
  constructor
  · intro h
    by_contra hn
    rw [checkVertices_of_lt (Nat.not_le.1 hn)] at h
    cases h
  · exact checkVertices_of_le

end

variable (p : Plan)

/-- A sequence whose vertices can be addressed is drawn. -/
lemma draw_eq_ok {s : Sequence} (h : 4 * s.strokes ≤ Mesh.maxVertices) :
    p.draw s = .ok (Mesh.ofPath p.config.palette (Path.trace p.config s)) := by
  have hcheck : checkVertices (s.strokes * Stroke.vertexCount) = .ok () :=
    checkVertices_of_le (Nat.mul_comm 4 _ ▸ h)
  rw [draw, hcheck]
  rfl

/-- A sequence with too many vertices is refused, whatever its turns are. -/
lemma draw_eq_error {s : Sequence} (h : Mesh.maxVertices < 4 * s.strokes) :
    p.draw s = .error (.indexOverflow (4 * s.strokes) Mesh.maxVertices) := by
  have hcheck : checkVertices (s.strokes * Stroke.vertexCount) =
      .error (.indexOverflow (4 * s.strokes) Mesh.maxVertices) := by
    rw [Stroke.vertexCount, Nat.mul_comm]
    exact checkVertices_of_lt h
  rw [draw, hcheck]
  rfl

variable {s : Sequence}

/-- A sequence is drawn if and only if its vertices can be addressed, and then as the mesh of its
path. -/
theorem draw_eq_ok_iff {m : Mesh} :
    p.draw s = .ok m ↔
      4 * s.strokes ≤ Mesh.maxVertices ∧
        m = Mesh.ofPath p.config.palette (Path.trace p.config s) := by
  constructor
  · intro h
    by_cases hfit : 4 * s.strokes ≤ Mesh.maxVertices
    · rw [p.draw_eq_ok hfit] at h
      cases h
      exact ⟨hfit, rfl⟩
    · rw [p.draw_eq_error (Nat.not_le.1 hfit)] at h
      cases h
  · rintro ⟨hfit, rfl⟩
    exact p.draw_eq_ok hfit

/-- A sequence is refused if and only if it has more vertices than can be addressed, and always for
that reason. -/
theorem draw_eq_error_iff {e : Error} :
    p.draw s = .error e ↔
      Mesh.maxVertices < 4 * s.strokes ∧ e = .indexOverflow (4 * s.strokes) Mesh.maxVertices := by
  constructor
  · intro h
    by_cases hfit : 4 * s.strokes ≤ Mesh.maxVertices
    · rw [p.draw_eq_ok hfit] at h
      cases h
    · have hlarge := Nat.not_le.1 hfit
      rw [p.draw_eq_error hlarge] at h
      cases h
      exact ⟨hlarge, rfl⟩
  · rintro ⟨hlarge, rfl⟩
    exact p.draw_eq_error hlarge

/-! ## The check of a plan -/

/-- The census gives the number of vertices of the grown seed, up to the largest count.

**Proof sketch.** The census of strokes is exact up to its limit, and a number at the limit stays
there when it is multiplied. -/
theorem vertexDemand_eq_min : p.vertexDemand = min (2 ^ 64 - 1) (4 * p.grown.strokes) := by
  have hcensus : p.seed.strokesAfter p.config.generations.toNat =
      min Count.limit p.grown.strokes :=
    Sequence.strokesAfter_eq_min _ _
  rw [vertexDemand, hcensus]
  simp only [Count.mul, Count.limit, UInt64.size, Stroke.vertexCount]
  omega

/-- The plans whose mesh can be addressed are those that pass the check. -/
lemma checkSize_eq_ok_iff : p.checkSize = .ok () ↔ 4 * p.grown.strokes ≤ Mesh.maxVertices := by
  rw [checkSize, checkVertices_eq_ok_iff, vertexDemand_eq_min]
  simp only [Mesh.maxVertices]
  omega

/-- A plan that passes the check draws its grown seed. -/
lemma drawGrown_of_checkSize_eq_ok (h : p.checkSize = .ok ()) :
    p.drawGrown = p.draw p.grown := by
  rw [drawGrown, h]
  rfl

/-- A plan that fails the check draws nothing. -/
lemma drawGrown_of_checkSize_eq_error {e : Error} (h : p.checkSize = .error e) :
    p.drawGrown = .error e := by
  rw [drawGrown, h]
  rfl

/-- What a plan that passes the check draws has the vertices that the census announced. -/
lemma exists_draw_grown (h : p.checkSize = .ok ()) :
    ∃ m, p.draw p.grown = .ok m ∧ m.vertexCount = p.vertexDemand := by
  have hle := p.checkSize_eq_ok_iff.1 h
  refine ⟨_, p.draw_eq_ok hle, ?_⟩
  rw [Mesh.vertexCount_ofPath, vertexDemand_eq_min]
  simp only [Mesh.maxVertices] at hle
  omega

/-- A plan fails the check with the number of vertices that the census announced. -/
lemma checkSize_eq_error {e : Error} (h : p.checkSize = .error e) :
    Mesh.maxVertices < p.vertexDemand ∧ e = .indexOverflow p.vertexDemand Mesh.maxVertices := by
  rw [checkSize, checkVertices] at h
  split at h
  · next hlt =>
    cases h
    exact ⟨hlt, rfl⟩
  · cases h

/-- A plan draws its grown seed if and only if it passes the check. -/
lemma exists_drawGrown_iff_checkSize : (∃ m, p.drawGrown = .ok m) ↔ p.checkSize = .ok () := by
  constructor
  · rintro ⟨m, hm⟩
    cases hcheck : p.checkSize with
    | ok => rfl
    | error e =>
      rw [p.drawGrown_of_checkSize_eq_error hcheck] at hm
      cases hm
  · intro h
    obtain ⟨m, hm, -⟩ := p.exists_draw_grown h
    exact ⟨m, (p.drawGrown_of_checkSize_eq_ok h).trans hm⟩

/-- A plan has no other error than that of the check. -/
lemma drawGrown_eq_error_iff_checkSize {e : Error} :
    p.drawGrown = .error e ↔ p.checkSize = .error e := by
  cases hcheck : p.checkSize with
  | ok =>
    obtain ⟨m, hm⟩ := p.exists_drawGrown_iff_checkSize.2 hcheck
    simp [hm]
  | error cause =>
    rw [p.drawGrown_of_checkSize_eq_error hcheck, Except.error.injEq, Except.error.injEq]

/-- Drawing the grown seed would fail in the same way, as long as the census has not reached the
largest count. -/
lemma draw_grown_eq_error {e : Error} (h : p.checkSize = .error e)
    (hcount : 4 * p.grown.strokes < 2 ^ 64) : p.draw p.grown = .error e := by
  obtain ⟨hlt, rfl⟩ := p.checkSize_eq_error h
  have hdemand : p.vertexDemand = 4 * p.grown.strokes := by
    rw [vertexDemand_eq_min]
    omega
  rw [hdemand] at hlt ⊢
  exact p.draw_eq_error hlt

/-- **The two checks of a plan agree.** With `n` the number of vertices of the grown seed,

* the census announces `n` vertices, or the largest count if `n` is larger;
* the plan passes its check exactly if 16-bit indices can address `n` vertices;
* it draws its grown seed exactly if it passes, and then the mesh is that of the grown seed and has
  as many vertices as were announced;
* otherwise it fails with the error of the check, which names the announced number, and which
  drawing the grown seed would give as well if `n` is no larger than the largest count.

**Proof sketch.** The census is exact up to the largest count (`vertexDemand_eq_min`), which is beyond
the check. So the check says the same of the announced number as of the true one, and drawing makes
the same check again. -/
theorem drawGrown_agrees_with_checkSize :
    p.vertexDemand = min (2 ^ 64 - 1) (4 * p.grown.strokes) ∧
      (p.checkSize = .ok () ↔ 4 * p.grown.strokes ≤ 65536) ∧
      ((∃ m, p.drawGrown = .ok m) ↔ p.checkSize = .ok ()) ∧
      (p.checkSize = .ok () → ∃ m, p.drawGrown = .ok m ∧ p.draw p.grown = .ok m ∧
        m.vertexCount = p.vertexDemand) ∧
      (∀ e, p.checkSize = .error e →
        p.drawGrown = .error e ∧ e = .indexOverflow p.vertexDemand 65536 ∧
          (4 * p.grown.strokes < 2 ^ 64 → p.draw p.grown = .error e)) := by
  refine ⟨p.vertexDemand_eq_min, p.checkSize_eq_ok_iff, p.exists_drawGrown_iff_checkSize, ?_, ?_⟩
  · intro h
    obtain ⟨m, hm, hcount⟩ := p.exists_draw_grown h
    exact ⟨m, (p.drawGrown_of_checkSize_eq_ok h).trans hm, hm, hcount⟩
  · intro e h
    exact ⟨p.drawGrown_of_checkSize_eq_error h, (p.checkSize_eq_error h).2,
      p.draw_grown_eq_error h⟩

end Ribbon.Plan
