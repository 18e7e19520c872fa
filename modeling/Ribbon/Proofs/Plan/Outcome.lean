import Ribbon.Proofs.Config.Loading
import Ribbon.Proofs.Plan.Capacity
import Ribbon.Proofs.Sequence.Notation

/-!
# What plans come to

Which configurations make a plan, which plans draw their grown seed, and what is reported otherwise.

## Main definitions

* `Ribbon.Plan.Refused` — the first thing wrong with a configuration.

## Main results

* `Ribbon.Plan.exists_ofConfig_of_check`, `Ribbon.Plan.ofConfig_of_malformed` — making a plan.
* `Ribbon.Plan.exists_drawGrown_iff`, `Ribbon.Plan.drawGrown_eq_error_iff` — drawing the grown seed.
* `Ribbon.Plan.ofConfig_eq_error_iff` — what is reported.
* `Ribbon.Plan.ofConfig_accepts_or_refuses` — all about making a plan.
-/

set_option relaxedAutoImplicit false
set_option autoImplicit false

namespace Ribbon.Plan

/-! ## What plans come to

A configuration that passes its check makes a plan if its seed can be read. The plan draws its grown seed
if 16-bit indices can address the vertices.
-/

section

variable {c : Config} {e : Error}

/-- A configuration that passes its check makes a plan if its seed can be read. -/
theorem exists_ofConfig_of_check (hcheck : c.check = .ok ()) {seed : Sequence}
    (hseed : c.seedSequence = .ok seed) :
    ∃ p, ofConfig c = .ok p ∧ p.config = c ∧ p.seed = seed := by
  let p : Plan := ⟨c, seed, hcheck, hseed⟩
  exact ⟨p, ofConfig_config p, rfl, rfl⟩

/-- A configuration that passes its check makes no plan if its seed cannot be read. -/
theorem ofConfig_of_malformed (hcheck : c.check = .ok ()) {cause : Sequence.Malformed}
    (hseed : c.seedSequence = .error cause) : ofConfig c = .error (.malformedSymbol cause) := by
  unfold ofConfig
  split
  · next hinvalid =>
    rw [hcheck] at hinvalid
    cases hinvalid
  · split
    · next hmalformed =>
      rw [hseed] at hmalformed
      cases hmalformed
      rfl
    · next hread =>
      rw [hseed] at hread
      cases hread

/-- A plan has the configuration that it is made of. -/
lemma config_of_ofConfig {p : Plan} (h : ofConfig c = .ok p) : p.config = c := by
  unfold ofConfig at h
  split at h
  · cases h
  · split at h
    · cases h
    · cases h
      rfl

variable (p : Plan)

/-- A plan draws its grown seed if and only if 16-bit indices can address the vertices. -/
theorem exists_drawGrown_iff : (∃ m, p.drawGrown = .ok m) ↔ 4 * p.grown.strokes ≤ 65536 :=
  p.exists_drawGrown_iff_checkSize.trans p.checkSize_eq_ok_iff

/-- Otherwise it names the vertices that would be needed, as far as they can be counted. -/
theorem drawGrown_eq_error_iff :
    p.drawGrown = .error e ↔
      65536 < 4 * p.grown.strokes ∧
        e = .indexOverflow (min (2 ^ 64 - 1) (4 * p.grown.strokes)) 65536 := by
  rw [drawGrown_eq_error_iff_checkSize]
  constructor
  · intro h
    obtain ⟨hlarge, rfl⟩ := p.checkSize_eq_error h
    rw [vertexDemand_eq_min] at hlarge ⊢
    simp only [Mesh.maxVertices] at hlarge
    exact ⟨by omega, rfl⟩
  · rintro ⟨hlarge, rfl⟩
    have hexceeds : 65536 < min (2 ^ 64 - 1) (4 * p.grown.strokes) := by omega
    rw [checkSize, vertexDemand_eq_min]
    exact if_pos hexceeds

end

/-! ## Which configurations make a plan

A configuration makes a plan if all of its numbers are within their ranges and every character of its
seed is legible. Otherwise the first thing wrong with it is reported: the numbers come before the seed,
and the seed is wrong at its first foreign character.
-/

section

open Sequence (IsLegible)

variable {c : Config} {e : Error}

/-- What is wrong first with a configuration: one of its numbers, or else a character of its seed. -/
inductive Refused (c : Config) : Error → Prop
  | invalid {cause : Config.Invalid} (flaw : c.FirstFlaw cause) : Refused c (.invalidConfig cause)
  | malformed {before after : List Char} {symbol : Char} (sound : c.IsSound)
      (text : c.seed.toList = before ++ symbol :: after) (legible : ∀ b ∈ before, IsLegible b)
      (foreign : ¬IsLegible symbol) : Refused c (.malformedSymbol ⟨symbol, before.length⟩)

/-- A configuration that does not pass its check makes no plan, whatever its seed. -/
lemma ofConfig_of_invalid {cause : Config.Invalid} (hcheck : c.check = .error cause) :
    ofConfig c = .error (.invalidConfig cause) := by
  unfold ofConfig
  split
  · next hinvalid =>
    rw [hcheck] at hinvalid
    cases hinvalid
    rfl
  · next hvalid =>
    rw [hcheck] at hvalid
    cases hvalid

/-- A configuration makes a plan just if it is sound and its seed can be read. -/
lemma exists_ofConfig_iff :
    (∃ p, ofConfig c = .ok p) ↔ c.IsSound ∧ ∃ seed, c.seedSequence = .ok seed := by
  constructor
  · rintro ⟨p, hp⟩
    obtain rfl := config_of_ofConfig hp
    exact ⟨Config.check_eq_ok_iff_isSound.1 p.valid, p.seed, p.spelled⟩
  · rintro ⟨hsound, seed, hseed⟩
    obtain ⟨p, hp, -⟩ :=
      exists_ofConfig_of_check (Config.check_eq_ok_iff_isSound.2 hsound) hseed
    exact ⟨p, hp⟩

/-- **What is reported** of a configuration that makes no plan.

**Proof sketch.** The check comes first, and the seed is read if there is nothing to be found there.
Each of the two steps reports its first error. -/
theorem ofConfig_eq_error_iff : ofConfig c = .error e ↔ Refused c e := by
  constructor
  · intro h
    cases hcheck : c.check with
    | error cause =>
      rw [ofConfig_of_invalid hcheck] at h
      cases h
      exact .invalid (Config.check_eq_error_iff.1 hcheck)
    | ok =>
      have hsound := Config.check_eq_ok_iff_isSound.1 hcheck
      cases hseed : c.seedSequence with
      | error m =>
        rw [ofConfig_of_malformed hcheck hseed] at h
        cases h
        obtain ⟨before, after, htext, hposition, hbefore, hforeign⟩ :=
          Sequence.parseFrom_eq_error_iff.1 hseed
        obtain ⟨symbol, position⟩ := m
        obtain rfl : position = before.length := by simpa using hposition
        exact .malformed hsound htext hbefore hforeign
      | ok seed =>
        obtain ⟨p, hp⟩ := exists_ofConfig_iff.2 ⟨hsound, seed, hseed⟩
        rw [hp] at h
        cases h
  · intro h
    cases h with
    | invalid hflaw => exact ofConfig_of_invalid (Config.check_eq_error_iff.2 hflaw)
    | @malformed before after symbol hsound htext hbefore hforeign =>
      have hseed : c.seedSequence = .error ⟨symbol, before.length⟩ :=
        Sequence.parseFrom_eq_error_iff.2
          ⟨before, after, htext, (Nat.zero_add _).symm, hbefore, hforeign⟩
      exact ofConfig_of_malformed (Config.check_eq_ok_iff_isSound.2 hsound) hseed

/-- **A configuration makes a plan, or the first thing wrong with it is reported.** It makes a plan just
if its step is finite and positive, its thickness and colour delta are finite and not negative, its
origin is finite, and every character of its seed is legible. The seed of the plan is then the one that
the configuration spells. Otherwise the error names the first number that is out of its range, in that
order, or if there is none, the first foreign character of the seed with its position. -/
theorem ofConfig_accepts_or_refuses (c : Config) :
    ((∃ p, ofConfig c = .ok p) ↔ c.IsSound ∧ ∀ x ∈ c.seed.toList, IsLegible x) ∧
      (∀ p, ofConfig c = .ok p → Sequence.parse c.seed = .ok p.seed ∧
        p.seed.map Symbol.char = Text.marks c.seed.toList) ∧
      ∀ e, ofConfig c = .error e ↔ Refused c e := by
  refine ⟨?_, fun p hp => ?_, fun e => ofConfig_eq_error_iff⟩
  · rw [exists_ofConfig_iff]
    refine and_congr_right fun _ => ⟨?_, fun hlegible => ?_⟩
    · rintro ⟨seed, hseed⟩
      exact Sequence.legible_of_map_char (Sequence.parseFrom_eq_ok_iff.1 hseed)
    · obtain ⟨seed, -, hseed⟩ := Sequence.parseFrom_of_legible hlegible 0
      exact ⟨seed, hseed⟩
  · obtain rfl := config_of_ofConfig hp
    exact ⟨p.spelled, Sequence.parseFrom_eq_ok_iff.1 p.spelled⟩

end

end Ribbon.Plan
