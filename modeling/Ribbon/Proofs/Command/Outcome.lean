import Ribbon.Command.Run
import Ribbon.Proofs.Config.Loading
import Ribbon.Proofs.Plan.Outcome

/-!
# How runs of the program end

A run does step by step what a plan does in one go: it finds its configuration, makes a plan of it,
checks the size, grows the seed and draws. It ends with what goes wrong first in this order, or with
the mesh of the plan. The generations of a file are read, but not used if others are given.

## Main definitions

* `Ribbon.Command.Requests` — the configuration that a run works with.
* `Ribbon.Command.Fails` — what goes wrong first.

## Main results

* `Ribbon.Command.perform_eq` — a run is the drawing of its plan.
* `Ribbon.Command.perform_eq_error_iff`, `Ribbon.Command.exists_perform_iff` — how a run ends.
* `Ribbon.Command.run_ends_with_first_error` — all of this for any arguments that ask for a ribbon.
-/

set_option relaxedAutoImplicit false
set_option autoImplicit false

namespace Ribbon.Command

open Json (bind_eq_ok bind_eq_error)

variable {o : Options} {file : Option ByteArray} {c : Config} {e : Error}

/-- A configuration with the generations that the options give, if they give any. -/
def Options.override (o : Options) (c : Config) : Config :=
  { c with generations := o.generations.getD c.generations }

/-- The configuration that a run works with: the standard one or that of its file, with the
generations that the options give. -/
inductive Requests (o : Options) (file : Option ByteArray) : Config → Prop
  | standard (no_file : o.config = none) : Requests o file (o.override Config.standard)
  | read {path : String} {c : Config} (has_file : o.config = some path)
      (loads : Config.Loads file c) : Requests o file (o.override c)

/-- What goes wrong first: loading the file, reading the seed, or fitting the grown seed into a
mesh. -/
inductive Fails (o : Options) (file : Option ByteArray) : Error → Prop
  | load {path : String} {e : Error} (has_file : o.config = some path)
      (load_fails : Config.LoadFails file e) : Fails o file e
  | seed {c : Config} {cause : Sequence.Malformed} (requests : Requests o file c)
      (is_malformed : c.seedSequence = .error cause) : Fails o file (.malformedSymbol cause)
  | size {c : Config} {seed : Sequence} (requests : Requests o file c)
      (spells : c.seedSequence = .ok seed)
      (too_large : 65536 < 4 * (seed.grown c.generations.toNat).strokes) :
      Fails o file
        (.indexOverflow (min (2 ^ 64 - 1) (4 * (seed.grown c.generations.toNat).strokes)) 65536)

/-- Without a file the standard configuration is found. -/
lemma configOf_of_none (h : o.config = none) :
    configOf o file = .ok (o.override Config.standard) := by
  rw [configOf, h]
  rfl

/-- With a file its configuration is found, if it can be loaded. -/
lemma configOf_of_some {path : String} (h : o.config = some path) :
    configOf o file = Config.ofFile file >>= fun c => .ok (o.override c) := by
  rw [configOf, h]
  rfl

/-- The configuration that is found is the one that is asked for. -/
lemma configOf_eq_ok_iff : configOf o file = .ok c ↔ Requests o file c := by
  constructor
  · intro h
    cases hpath : o.config with
    | none =>
      rw [configOf_of_none hpath] at h
      cases h
      exact .standard hpath
    | some path =>
      rw [configOf_of_some hpath, bind_eq_ok] at h
      obtain ⟨d, hd, h⟩ := h
      cases h
      exact .read hpath (Config.ofFile_eq_ok_iff.1 hd)
  · intro h
    cases h with
    | standard hpath => exact configOf_of_none hpath
    | read hpath hload =>
      rw [configOf_of_some hpath, Config.ofFile_eq_ok_iff.2 hload]
      rfl

/-- None is found if the file cannot be loaded. -/
lemma configOf_eq_error_iff :
    configOf o file = .error e ↔ ∃ path, o.config = some path ∧ Config.LoadFails file e := by
  constructor
  · intro h
    cases hpath : o.config with
    | none =>
      rw [configOf_of_none hpath] at h
      cases h
    | some path =>
      rw [configOf_of_some hpath, bind_eq_error] at h
      rcases h with h | ⟨d, -, h⟩
      · exact ⟨path, rfl, Config.ofFile_eq_error_iff.1 h⟩
      · cases h
  · rintro ⟨path, hpath, hfails⟩
    rw [configOf_of_some hpath, Config.ofFile_eq_error_iff.2 hfails]
    rfl

/-- Giving other generations does not change whether a configuration passes its check. -/
lemma Requests.check (h : Requests o file c) : c.check = .ok () := by
  cases h with
  | standard => exact (by decide +kernel : Config.standard.check = .ok ())
  | read _ hload =>
    obtain ⟨-, -, hcheck⟩ := hload
    exact hcheck

/-- The report on a plan that draws its grown seed. -/
def reportOf (plan : Plan) : Except Error Report :=
  plan.drawGrown.map fun mesh => ⟨plan, plan.grown, mesh⟩

/-- **A run is the drawing of its plan**: the steps of a run come to the grown seed and the mesh of the
plan of its configuration, or to the same error. -/
theorem perform_eq :
    perform o file = configOf o file >>= fun c => Plan.ofConfig c >>= reportOf := by
  unfold perform
  congr 1
  funext c
  congr 1
  funext plan
  cases hcheck : plan.checkSize with
  | error e =>
    rw [reportOf, plan.drawGrown_of_checkSize_eq_error hcheck]
    rfl
  | ok =>
    rw [reportOf, plan.drawGrown_of_checkSize_eq_ok hcheck]
    cases plan.draw plan.grown <;> rfl

/-- A plan reports an error if it cannot draw its grown seed. -/
lemma reportOf_eq_error_iff {plan : Plan} :
    reportOf plan = .error e ↔ plan.drawGrown = .error e := by
  rw [reportOf]
  cases plan.drawGrown <;> simp [Except.map]

/-- **Which runs fail**, and with what error.

**Proof sketch.** A run does three things in turn: it finds the configuration, makes a plan of it and
draws. It fails with the first of these that does. -/
theorem perform_eq_error_iff : perform o file = .error e ↔ Fails o file e := by
  simp only [perform_eq, bind_eq_error, configOf_eq_ok_iff, configOf_eq_error_iff,
    reportOf_eq_error_iff, Plan.drawGrown_eq_error_iff]
  constructor
  · rintro (⟨path, hpath, hload⟩ | ⟨c, hc, hplan⟩)
    · exact .load hpath hload
    · cases hseed : c.seedSequence with
      | error cause =>
        rw [Plan.ofConfig_of_malformed hc.check hseed] at hplan
        rcases hplan with h | ⟨p, h, -⟩
        · cases h
          exact .seed hc hseed
        · cases h
      | ok seed =>
        obtain ⟨p, hp, rfl, rfl⟩ := Plan.exists_ofConfig_of_check hc.check hseed
        rw [hp] at hplan
        rcases hplan with h | ⟨q, hq, hlarge, rfl⟩
        · cases h
        · cases hq
          exact .size hc hseed hlarge
  · intro h
    cases h with
    | load hpath hload => exact .inl ⟨_, hpath, hload⟩
    | seed hc hseed =>
      exact .inr ⟨_, hc, .inl (Plan.ofConfig_of_malformed hc.check hseed)⟩
    | size hc hseed hlarge =>
      obtain ⟨p, hp, rfl, rfl⟩ := Plan.exists_ofConfig_of_check hc.check hseed
      exact .inr ⟨_, hc, .inr ⟨p, hp, hlarge, rfl⟩⟩

/-- **Which runs succeed.** -/
theorem exists_perform_iff :
    (∃ r, perform o file = .ok r) ↔
      ∃ c seed, Requests o file c ∧ c.seedSequence = .ok seed ∧
        4 * (seed.grown c.generations.toNat).strokes ≤ 65536 := by
  simp only [perform_eq, bind_eq_ok, configOf_eq_ok_iff]
  constructor
  · rintro ⟨r, c, hc, p, hp, hr⟩
    obtain rfl := Plan.config_of_ofConfig hp
    refine ⟨p.config, p.seed, hc, p.spelled, p.exists_drawGrown_iff.1 ?_⟩
    cases hdraw : p.drawGrown with
    | ok m => exact ⟨m, rfl⟩
    | error e =>
      rw [reportOf, hdraw] at hr
      cases hr
  · rintro ⟨c, seed, hc, hseed, hfit⟩
    obtain ⟨p, hp, rfl, rfl⟩ := Plan.exists_ofConfig_of_check hc.check hseed
    obtain ⟨m, hm⟩ := p.exists_drawGrown_iff.2 hfit
    refine ⟨⟨p, p.grown, m⟩, _, hc, p, hp, ?_⟩
    rw [reportOf, hm]
    rfl

/-- A run and its plan draw the same mesh, or end with the same error. -/
lemma map_mesh_perform (h : Requests o file c) :
    (perform o file).map Report.mesh = Plan.ofConfig c >>= Plan.drawGrown := by
  rw [perform_eq, configOf_eq_ok_iff.2 h]
  cases hp : Plan.ofConfig c with
  | error e => simp [bind, Except.bind, hp, Except.map]
  | ok p => cases hm : p.drawGrown <;> simp [bind, Except.bind, hp, reportOf, hm, Except.map]

/-- If the options give the generations, those of the file do not matter. -/
lemma perform_congr {file' : Option ByteArray} {d : Config} (hgiven : o.generations.isSome = true)
    (hc : Config.Loads file c) (hd : Config.Loads file' d)
    (hsame : { c with generations := 0 } = { d with generations := 0 }) :
    perform o file' = perform o file := by
  have hconfig : configOf o file' = configOf o file := by
    cases hpath : o.config with
    | none => rw [configOf_of_none hpath, configOf_of_none hpath]
    | some path =>
      have hoverride : o.override d = o.override c := by
        obtain ⟨n, hn⟩ := Option.isSome_iff_exists.1 hgiven
        cases c
        cases d
        simp_all [Options.override]
      rw [configOf_of_some hpath, configOf_of_some hpath, Config.ofFile_eq_ok_iff.2 hc,
        Config.ofFile_eq_ok_iff.2 hd]
      exact congrArg Except.ok hoverride
  rw [perform_eq, perform_eq, hconfig]

/-! ## Outcomes -/

section

variable (f : Log.Filter)

/-- A run that succeeds prints what it reports. -/
lemma outcome_of_ok {r : Report} (h : perform o file = .ok r) :
    outcome (.draw o) file f = ⟨0, (r.events f).map Log.Event.line, none⟩ := by
  simp only [outcome, h]

/-- A run that fails prints nothing. -/
lemma outcome_of_error (h : perform o file = .error e) :
    outcome (.draw o) file f = ⟨1, [], some e⟩ := by
  simp only [outcome, h]

/-- The outcome of a run names its error. -/
lemma failure_eq_some_iff : (outcome (.draw o) file f).failure = some e ↔ Fails o file e := by
  rw [← perform_eq_error_iff]
  cases h : perform o file with
  | error cause => simp [outcome_of_error f h]
  | ok r => simp [outcome_of_ok f h]

/-- The outcome of a run that succeeds names none. -/
lemma failure_eq_none_iff :
    (outcome (.draw o) file f).failure = none ↔ ∃ r, perform o file = .ok r := by
  cases h : perform o file with
  | error cause => simp [outcome_of_error f h]
  | ok r => simp [outcome_of_ok f h]

/-- The exit code tells whether a run has failed. -/
lemma exitCode_eq :
    (outcome (.draw o) file f).exitCode =
      if (outcome (.draw o) file f).failure.isNone then 0 else 1 := by
  cases h : perform o file with
  | error cause => simp [outcome_of_error f h]
  | ok r => simp [outcome_of_ok f h]

end

/-- **A run ends with the first error, or with the ribbon of its plan.** Let the arguments of the program
ask for a ribbon.

* The run succeeds if and only if there is a configuration, that of the file or the standard one, with
  the generations that the arguments give, whose seed can be read and does not grow to more strokes than
  16-bit indices can address the vertices of.
* Otherwise it ends with what goes wrong first: loading the file (its bytes, its document, its check),
  reading the seed, or fitting the grown seed into a mesh. The exit code tells which of both it is.
* Its mesh, or its error, is that of the plan of its configuration.
* If the arguments give the generations, two files that differ in nothing else than their generations
  have the same outcome, with all that is printed. -/
theorem run_ends_with_first_error {args : List String} {o : Options}
    (h : Request.ofArguments args = .draw o) (file : Option ByteArray) (f : Log.Filter) :
    let run := outcome (Request.ofArguments args) file f
    (run.failure = none ↔
      ∃ c seed, Requests o file c ∧ c.seedSequence = .ok seed ∧
        4 * (seed.grown c.generations.toNat).strokes ≤ 65536) ∧
    (∀ e, run.failure = some e ↔ Fails o file e) ∧
    run.exitCode = (if run.failure.isNone then 0 else 1) ∧
    (∀ c, Requests o file c →
      (perform o file).map Report.mesh = Plan.ofConfig c >>= Plan.drawGrown) ∧
    (o.generations.isSome = true → ∀ file' c d, Config.Loads file c → Config.Loads file' d →
      { c with generations := 0 } = { d with generations := 0 } →
      outcome (Request.ofArguments args) file' f = run) := by
  rw [h]
  refine ⟨?_, ?_, exitCode_eq f, ?_, ?_⟩
  · rw [failure_eq_none_iff, exists_perform_iff]
  · intro e
    exact failure_eq_some_iff f
  · intro c hc
    exact map_mesh_perform hc
  · intro hgiven file' c d hc hd hsame
    rw [outcome, outcome, perform_congr hgiven hc hd hsame]

/-- The text of a configuration with far more generations than can be drawn. -/
def oversized : String :=
  "\x7b\"generations\": 4294967295\x7d"

/-- What it loads. -/
lemma loads_oversized :
    Config.Loads (some oversized.toUTF8) { Config.standard with generations := 4294967295 } := by
  have htext : Config.fileText (some oversized.toUTF8) = .ok oversized := by
    rw [Config.fileText, String.fromUTF8?, dif_pos]
    rfl
  have hread : Json.document Config.read oversized =
      .ok { Config.standard with generations := 4294967295 } := by
    rfl
  exact .read htext hread (by decide +kernel)

/-- The arguments may make up for it: one generation of the same seed has 25 strokes. -/
theorem run_ends_with_first_error_overridden :
    Request.ofArguments ["-c", "ribbon.json", "--generations=1"] = .draw ⟨"ribbon.json", some 1⟩ ∧
      (outcome (Request.ofArguments ["-c", "ribbon.json", "--generations=1"])
        (some oversized.toUTF8) .standard).failure = none := by
  have hrequest : Request.ofArguments ["-c", "ribbon.json", "--generations=1"] =
      .draw ⟨"ribbon.json", some 1⟩ := by decide +kernel
  have hends := run_ends_with_first_error hrequest (some oversized.toUTF8) .standard
  refine ⟨hrequest, hends.1.2 ⟨_, [.turnRight, .forwardB], .read rfl loads_oversized, ?_, ?_⟩⟩
  · decide +kernel
  · rw [Sequence.strokes_grown_eq_mul]
    decide

end Ribbon.Command
