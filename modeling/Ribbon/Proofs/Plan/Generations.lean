import Ribbon.Proofs.Plan.Capacity
import Ribbon.Proofs.Sequence.Growth

/-!
# The generations of a plan

The sequences on the way to the last generation, and plans that start from one of them.

## Main definitions

* `Ribbon.Plan.pregrown` — the configuration for the generations that are left.

## Main results

* `Ribbon.Plan.strokes_generation_le` — the strokes on the way are no more than in the end.
* `Ribbon.Plan.length_generation_le` — nor is any sequence on the way much longer than the vertices
  allow.
* `Ribbon.Plan.ofConfig_pregrown` — it is a plan.
* `Ribbon.Plan.pregrown_same_ribbon` — and it draws the same ribbon.
-/

set_option relaxedAutoImplicit false
set_option autoImplicit false

namespace Ribbon.Plan

/-! ## The generations of a plan that fits

The size check of a plan looks at the strokes of the last generation only, and by a census that stops
at a limit. What is held in memory are all symbols, turns included, of one generation after the other.
They are few all the same: a plan that passes its check never comes to a long sequence.
-/

/-- No generation on the way to a grown seed that fits has more strokes than there are vertices for. -/
theorem strokes_generation_le {p : Plan} (h : p.checkSize = .ok ()) {i : Nat}
    (hi : i ≤ p.config.generations.toNat) : (p.seed.grown i).strokes ≤ 16384 := by
  have hlast : (p.seed.grown i).strokes ≤ p.grown.strokes :=
    Sequence.strokes_grown_mono p.seed hi
  have hfit := p.checkSize_eq_ok_iff.1 h
  simp only [Mesh.maxVertices] at hfit
  omega

/-- **The generations of a plan that fits are short.** If a plan passes the check of its size, then its
grown seed, and every generation on the way to it from the seed itself on, has at most 28672 symbols
more than the seed has turns.

**Proof sketch.** There are at most 16384 strokes in any of these generations, and the symbols are at
most seven quarters of the strokes, the turns of the seed apart. -/
theorem length_generation_le (p : Plan) (h : p.checkSize = .ok ()) :
    p.grown.length ≤ p.seed.turns + 28672 ∧
      ∀ i ≤ p.config.generations.toNat, (p.seed.grown i).length ≤ p.seed.turns + 28672 := by
  have hall : ∀ i ≤ p.config.generations.toNat,
      (p.seed.grown i).length ≤ p.seed.turns + 28672 := by
    intro i hi
    have hstrokes := strokes_generation_le h hi
    have hlength := Sequence.length_grown_le p.seed i
    omega
  exact ⟨hall _ le_rfl, hall⟩

/-- A plan that comes close to the bound: a turn and 26 strokes that grow for two generations. -/
def crowded : Plan where
  config := { Config.standard with seed := "-LLLLLLLLLLLLLLLLLLLLLLLLLL" }
  seed := .turnRight :: List.replicate 26 .forwardA
  valid := by decide +kernel
  spelled := by decide +kernel

/-- The seed of a crowded plan grows to 28419 symbols, of at most 28673. -/
theorem length_generation_le_crowded :
    crowded.checkSize = .ok () ∧ crowded.grown.length = 28419 ∧ crowded.grown.length ≤ 28673 ∧
      (crowded.seed.grown 1).length ≤ 28673 := by
  have hsame : crowded.grown = crowded.seed.grown 2 := rfl
  have hseed : crowded.seed.strokes = 26 ∧ crowded.seed.turns = 1 := by decide
  have hstrokes := Sequence.strokes_grown_eq_mul crowded.seed 2
  have hlength := Sequence.length_grown crowded.seed 2
  rw [hseed.1, ← hsame] at hstrokes
  rw [hseed.1, hseed.2, ← hsame] at hlength
  have hfit : crowded.checkSize = .ok () :=
    crowded.checkSize_eq_ok_iff.2 (by rw [hstrokes]; decide)
  obtain ⟨hgrown, hgenerations⟩ := length_generation_le crowded hfit
  have hone := hgenerations 1 (by decide)
  rw [hseed.2] at hgrown hone
  exact ⟨hfit, by omega, hgrown, hone⟩

end Ribbon.Plan

namespace Ribbon

/-! ## Growing a part of the generations in advance

The generations of a plan may be grown in two goes: its seed is grown for some of them and written
down, and a second plan with that text as its seed grows the rest. Nothing shows which of the two
plans was used, not even a refusal: both census come to the same number, although they start from
different seeds and reach the limit of counts at different generations.
-/

/-! ### Settings that do not matter to a drawing -/

section

variable {c d : Config} (horigin : c.origin = d.origin) (hstep : c.step = d.step)
  (hthickness : c.thickness = d.thickness) (hpalette : c.palette = d.palette)
  (hcolor : c.colorDelta = d.colorDelta)

include horigin hstep hthickness hpalette hcolor

/-- The path of a sequence depends neither on the seed nor on the generations. -/
lemma Path.trace_congr (s : Sequence) : Path.trace c s = Path.trace d s := by
  have hfollow : Path.follow c = Path.follow d := by
    funext p a
    simp only [Path.follow, Path.draw, Path.turn, Path.halfWidth, hstep, hthickness, hpalette,
      hcolor]
  rw [Path.trace, Path.trace, hfollow, Path.start, Path.start, horigin, hstep]

end

namespace Plan

/-- The configuration of the plan that grows the seed of `p` after `h` generations for those that are
left. -/
def pregrown (p : Plan) (h : UInt32) : Config :=
  { p.config with
    seed := Sequence.format (p.seed.grown h.toNat)
    generations := p.config.generations - h }

/-- What is left of the generations is a plan, with the grown seed as its seed.

**Proof sketch.** The check of a configuration does not look at the seed or the generations, and the
text of the grown seed is read back. -/
theorem ofConfig_pregrown (p : Plan) (h : UInt32) :
    ∃ q, ofConfig (p.pregrown h) = .ok q ∧ q.config = p.pregrown h ∧
      q.seed = p.seed.grown h.toNat := by
  let q : Plan :=
    { config := p.pregrown h
      seed := p.seed.grown h.toNat
      valid := p.valid
      spelled := Sequence.parse_format _ }
  exact ⟨q, ofConfig_config q, rfl, rfl⟩

section

variable {p q : Plan} {h : UInt32} (hconfig : q.config = p.pregrown h)
  (hseed : q.seed = p.seed.grown h.toNat)

include hconfig

/-- Any sequence is drawn alike. -/
lemma draw_pregrown (s : Sequence) : q.draw s = p.draw s := by
  have hpath : Path.trace q.config s = Path.trace p.config s := by
    rw [hconfig]
    exact Path.trace_congr rfl rfl rfl rfl rfl s
  have hpalette : q.config.palette = p.config.palette := by
    rw [hconfig]
    rfl
  rw [draw, draw, trace, trace, hpath, hpalette]

include hseed

/-- Both plans come to the same grown seed. -/
lemma grown_pregrown (hle : h ≤ p.config.generations) : q.grown = p.grown := by
  have hleft : q.config.generations.toNat = p.config.generations.toNat - h.toNat := by
    rw [hconfig]
    exact UInt32.toNat_sub_of_le _ _ hle
  rw [grown, hseed, hleft, ← Sequence.grown_add, Nat.add_sub_cancel' (UInt32.le_iff_toNat_le.1 hle),
    grown]

/-- Both census announce the same number of vertices, since either is exact up to the limit. -/
lemma vertexDemand_pregrown (hle : h ≤ p.config.generations) :
    q.vertexDemand = p.vertexDemand := by
  rw [vertexDemand_eq_min, grown_pregrown hconfig hseed hle, vertexDemand_eq_min]

end

/-- **Growing in advance changes nothing.** Let `h` of the generations of a plan be grown in advance.
The configuration for the rest is a plan; it comes to the same grown seed, announces the same number
of vertices, passes or fails the check of its size in the same way, and draws the same mesh or fails
with the same error. Any other sequence is drawn alike as well. -/
theorem pregrown_same_ribbon (p : Plan) {h : UInt32} (hle : h ≤ p.config.generations) :
    ∃ q, ofConfig (p.pregrown h) = .ok q ∧ q.grown = p.grown ∧
      q.vertexDemand = p.vertexDemand ∧ q.checkSize = p.checkSize ∧
      q.drawGrown = p.drawGrown ∧ ∀ s, q.draw s = p.draw s := by
  obtain ⟨q, hq, hconfig, hseed⟩ := p.ofConfig_pregrown h
  have hgrown := grown_pregrown hconfig hseed hle
  have hdraw := draw_pregrown hconfig
  have hsize : q.checkSize = p.checkSize := by
    rw [checkSize, vertexDemand_pregrown hconfig hseed hle, checkSize]
  refine ⟨q, hq, hgrown, vertexDemand_pregrown hconfig hseed hle, hsize, ?_, hdraw⟩
  rw [drawGrown, drawGrown, hsize, hgrown, hdraw]

/-- The plan that grows the standard seed for as many generations as there can be. -/
def endless : Plan where
  config := { Config.standard with generations := 4294967295 }
  seed := [.turnRight, .forwardB]
  valid := by decide +kernel
  spelled := by decide +kernel

/-- Of a seed that can never be drawn two generations are grown in advance: the census reaches its
limit at another generation, and the refusal names the same number. -/
theorem pregrown_same_ribbon_endless :
    2 ≤ endless.config.generations ∧ ∃ q, ofConfig (endless.pregrown 2) = .ok q ∧
      q.vertexDemand = 2 ^ 64 - 1 ∧ q.drawGrown = .error (.indexOverflow (2 ^ 64 - 1) 65536) := by
  have hle : 2 ≤ endless.config.generations := by decide
  have hdemand : endless.vertexDemand = 2 ^ 64 - 1 := by decide +kernel
  have hrefused : endless.checkSize = .error (.indexOverflow (2 ^ 64 - 1) 65536) := by
    rw [checkSize, hdemand]
    rfl
  obtain ⟨q, hq, -, hqdemand, -, hqdraw, -⟩ := pregrown_same_ribbon endless hle
  exact ⟨hle, q, hq, hqdemand.trans hdemand,
    hqdraw.trans (drawGrown_of_checkSize_eq_error endless hrefused)⟩

end Plan

end Ribbon
