import Ribbon.Proofs.Config.Loading
import Ribbon.Proofs.Config.Settings

/-!
# Documents override the settings that they name

A document may give any of the seven settings once each, in any order, however their values are written,
and it may give other values by names that are not known. It is read as the standard configuration with
the given settings in place of the standard ones. That configuration is checked as a whole when all of
it has been read, so that neither the order nor the other values matter to what comes of the document.

## Main definitions

* `Ribbon.Config.Gives` — the settings that the members of an object give.
* `Ribbon.Config.DocumentOf` — the documents that give certain settings.
* `Ribbon.Config.standardWith` — the standard configuration with settings of one's own.

## Main results

* `Ribbon.Config.Gives.perm` — the order of the members does not matter.
* `Ribbon.Config.Gives.fills` — the members are read one after the other.
* `Ribbon.Config.DocumentOf.document_read` — what is given is what is read.
* `Ribbon.Config.ofJson_overrides` — what comes of the document.
-/

set_option relaxedAutoImplicit false
set_option autoImplicit false

namespace Ribbon.Config

open Json

/-- The settings that the members of an object give: each once at most, and in any order. Members with
other names may stand between them, and their values may be anything. -/
inductive Gives : List (String × List Char) → (∀ f : Setting, Option f.Value) → Prop
  | nil : Gives [] fun _ => none
  | setting {f : Setting} {x : f.Value} {text : List Char} {ms : List (String × List Char)}
      {given : ∀ f : Setting, Option f.Value} (hvalue : f.SpelledBy x text) (hnew : given f = none)
      (tail : Gives ms given) : Gives ((f.name, text) :: ms) (Function.update given f (some x))
  | unknown {name : String} {text : List Char} {ms : List (String × List Char)}
      {given : ∀ f : Setting, Option f.Value} (hname : ∀ f : Setting, name ≠ f.name)
      (hvalue : IsValue text) (tail : Gives ms given) : Gives ((name, text) :: ms) given

/-- **The order of the members does not matter** to what they give.

**Proof sketch.** Induction on the permutation. Two neighbours give different settings, if both give
one, so that it does not matter which of them is set first. -/
theorem Gives.perm {ms ms' : List (String × List Char)} (hperm : ms.Perm ms')
    {given : ∀ f : Setting, Option f.Value} (h : Gives ms given) : Gives ms' given := by
  induction hperm generalizing given with
  | nil => exact h
  | cons m _ ih =>
    cases h with
    | setting hvalue hnew tail => exact .setting hvalue hnew (ih tail)
    | unknown hname hvalue tail => exact .unknown hname hvalue (ih tail)
  | swap m n ms =>
    cases h with
    | @setting g y _ _ _ hy hg tail =>
      cases tail with
      | @setting f x _ _ given hx hf tail =>
        have hne : f ≠ g := by
          rintro rfl
          simp at hg
        have hgiven : given g = none := by simpa [hne.symm] using hg
        rw [← Function.update_comm hne.symm]
        exact .setting hx (by simpa [hne] using hf) (.setting hy hgiven tail)
      | unknown hname hvalue tail => exact .unknown hname hvalue (.setting hy hg tail)
    | unknown hname hvalue tail =>
      cases tail with
      | setting hx hf tail => exact .setting hx hf (.unknown hname hvalue tail)
      | unknown hname' hvalue' tail => exact .unknown hname' hvalue' (.unknown hname hvalue tail)
  | trans _ _ ih ih' => exact ih' (ih h)

/-- **The members are read one after the other**, if they give nothing that the draft has already.

**Proof sketch.** Induction on the members, with the draft before them bound inside. The value of a
setting goes to its own place in the draft. That place was empty, and no later member gives the setting
again. -/
theorem Gives.fills {ms : List (String × List Char)} {given : ∀ f : Setting, Option f.Value}
    (h : Gives ms given) {d : Draft} (hnew : ∀ f, d.get f = none ∨ given f = none) :
    ∃ last, Fills readMember ms d last ∧ ∀ f, last.get f = (given f).or (d.get f) := by
  induction h generalizing d with
  | nil => exact ⟨d, .nil d, fun f => rfl⟩
  | @setting f x text ms given hvalue hgiven tail ih =>
    have hempty : d.get f = none := by simpa using hnew f
    have hnext : ∀ g, (d.set f x).get g = none ∨ given g = none := by
      intro g
      rw [Draft.get_set]
      by_cases hg : g = f
      · subst hg
        exact .inr hgiven
      · simpa [hg] using hnew g
    obtain ⟨last, hfills, hlast⟩ := ih hnext
    refine ⟨last, fills_setting hvalue.restores hempty hfills, fun g => ?_⟩
    rw [hlast, Draft.get_set]
    by_cases hg : g = f
    · subst hg
      simp [hgiven]
    · simp [hg]
  | @unknown name text ms given hname hvalue tail ih =>
    obtain ⟨last, hfills, hlast⟩ := ih hnew
    refine ⟨last, .cons (fun {rest} hrest => ?_) hfills, hlast⟩
    have hskip : unknownMember (':' :: (text ++ rest)) = .ok rest := hvalue.skipValue_append hrest
    rw [readMember_unknown hname, hskip]
    rfl

/-! ## Documents -/

/-- The standard configuration with the given settings in place of the standard ones. -/
def standardWith (given : ∀ f : Setting, Option f.Value) : Config where
  seed := (given .seed).getD standard.seed
  generations := (given .generations).getD standard.generations
  step := (given .step).getD standard.step
  thickness := (given .thickness).getD standard.thickness
  palette := (given .palette).getD standard.palette
  colorDelta := (given .colorDelta).getD standard.colorDelta
  origin := (given .origin).getD standard.origin

/-- What a draft does not have is standard. -/
lemma config_eq_standardWith (d : Draft) : d.config = standardWith d.get :=
  rfl

/-- The documents that give certain settings: objects, in whatever layout. -/
inductive DocumentOf (given : ∀ f : Setting, Option f.Value) (text : String) : Prop
  | object {ms : List (String × List Char)} {object : List Char} (hgives : Gives ms given)
      (hobject : Enclosed .object (fun m => MemberText (CharsText m.1.toList) m.2) ms object)
      (htext : ItemText object text.toList)

section

variable {given : ∀ f : Setting, Option f.Value} {text : String} (h : DocumentOf given text)

include h

/-- **A document is read** as the standard configuration with the settings that it gives. -/
theorem DocumentOf.document_read : document Config.read text = .ok (standardWith given) := by
  obtain ⟨hgives, hobject, htext⟩ := h
  obtain ⟨last, hfills, hlast⟩ := hgives.fills fun f => .inl (Draft.get_empty f)
  have hgiven : last.get = given := by
    funext f
    rw [hlast, Draft.get_empty, Option.or_none]
  obtain ⟨inner, rfl, hmembers⟩ :=
    hfills.members_enclosed ignoresBlanks_readMember.takesEntries hobject
  have hbracket : isBlank '\x7b' = false := by decide
  generalize hchars : text.toList = chars at htext
  cases htext with
  | @spaced before after hbefore hafter =>
    have hread : Config.read (before ++ ('\x7b' :: inner ++ after)) =
        .ok (standardWith given, after) := by
      rw [Config.read, List.cons_append, hbefore.token_append_cons hbracket]
      simp [hmembers, config_eq_standardWith, hgiven]
    exact document_eq_ok (hchars ▸ hread) hafter

/-- **A document overrides the settings that it names**, and no others. If the configuration that comes
of it is sound, that is the result, and otherwise its first flaw is reported in the order of the check,
whatever the order of the members. -/
theorem ofJson_overrides :
    (∀ c, ofJson text = .ok c ↔ c = standardWith given ∧ c.IsSound) ∧
      ∀ e, ofJson text = .error e ↔
        ∃ cause, (standardWith given).FirstFlaw cause ∧ e = .invalidConfig cause := by
  have hread := h.document_read
  constructor
  · intro c
    rw [ofJson_eq_ok_iff, hread, check_eq_ok_iff_isSound, Except.ok.injEq, eq_comm]
  · intro e
    rw [ofJson_eq_error_iff, hread]
    simp only [← check_eq_error_iff]
    constructor
    · rintro (⟨fault, hfault, -⟩ | ⟨c, cause, hc, hcheck, rfl⟩)
      · cases hfault
      · cases hc
        exact ⟨cause, hcheck, rfl⟩
    · rintro ⟨cause, hcheck, rfl⟩
      exact .inr ⟨_, cause, rfl, hcheck, rfl⟩

end

example : ofJson "\x7b\"origin\": [2, 1], \"step\": 0.5\x7d" =
    .ok { standard with step := 0.5, origin := ⟨2, 1⟩ } := by
  rfl

/-- A document whose two settings are both flawed, the later one in the order of the check first. Its
thickness has a point and an exponent, its step an escape in its name, and there is another step in a
value that is not used. -/
def crowded : String :=
  "\n\x7b\"thickness\": -2.5e-1, \"note\": [\x7b\"step\": 1\x7d],\t\"\\u0073tep\" : 0\x7d\n"

/-- What the document gives. -/
def crowdedSettings : ∀ f : Setting, Option f.Value :=
  Function.update (Function.update (fun _ => none) .step (some (0 : Float32))) .thickness
    (some (-0.25 : Float32))

/-- A number of one digit. -/
lemma numeralText_digit {d : Char} (hd : d.isDigit = true) : NumeralText ⟨false, [d], [], none⟩ [d] :=
  have wellFormed : Numeral.WellFormed ⟨false, [d], [], none⟩ :=
    { whole_ne_nil := by simp
      isDigit_whole := by simpa using hd
      length_whole := by simp
      isDigit_fraction := by simp
      exponent_ne_nil := by simp
      isDigit_exponent := by simp }
  .parts wellFormed .absent

/-- A quarter below zero, with a point and an exponent. -/
lemma singleText_quarter : SingleText (-0.25) "-2.5e-1".toList :=
  have wellFormed : Numeral.WellFormed ⟨true, ['2'], ['5'], some (true, ['1'])⟩ :=
    { whole_ne_nil := by simp
      isDigit_whole := by simp
      length_whole := by simp
      isDigit_fraction := by simp
      exponent_ne_nil := by simp
      isDigit_exponent := by simp }
  have hvalue := Numeral.value?_of_isInf_eq_false (n := ⟨true, ['2'], ['5'], some (true, ['1'])⟩) rfl
    (by decide +kernel)
  .number (.numeral wellFormed.numeralText hvalue) (by decide +kernel)

/-- The document gives its two settings, and nothing else that is used. -/
lemma documentOf_crowded : DocumentOf crowdedSettings crowded := by
  have hspace : IsBlanks [' '] := by decide
  have htab : IsBlanks ['\t'] := by decide
  have hline : IsBlanks ['\n'] := by decide
  -- The value that is not used, from the inside out.
  have hpiece {c : Char} (hc : c ≠ '\x22' ∧ c ≠ '\\' ∧ 0x20 ≤ c.toNat) : PieceText [c] :=
    .itself hc.1 hc.2.1 hc.2.2
  have hpieces : PiecesText ['s', 't', 'e', 'p'] :=
    .cons (hpiece (by decide)) <| .cons (hpiece (by decide)) <| .cons (hpiece (by decide)) <|
      .cons (hpiece (by decide)) .nil
  have hone : IsValue ['1'] := .number (numeralText_digit rfl)
  have hinner : IsValue "\x7b\"step\": 1\x7d".toList :=
    .bracket .object (List.forall_mem_singleton.2 hone)
      (.filled (.one (MemberText.named isBlanks_nil hpieces isBlanks_nil (.spaced hspace isBlanks_nil))))
  have hnote : IsValue "[\x7b\"step\": 1\x7d]".toList :=
    .bracket .list (List.forall_mem_singleton.2 hinner)
      (.filled (.one (ItemText.spaced isBlanks_nil isBlanks_nil)))
  -- The settings.
  have hstep : Setting.SpelledBy .step (0 : Float32) ['0'] :=
    .number (.numeral (numeralText_digit rfl) rfl) (by decide +kernel)
  have hthickness : Setting.SpelledBy .thickness (-0.25 : Float32) "-2.5e-1".toList :=
    singleText_quarter
  have hgives : Gives
      [("thickness", "-2.5e-1".toList), ("note", "[\x7b\"step\": 1\x7d]".toList), ("step", ['0'])]
      crowdedSettings :=
    .setting hthickness rfl (.unknown (fun f => by cases f <;> decide) hnote (.setting hstep rfl .nil))
  -- The names, one of them with an escape.
  have hunit : UnitText 's'.toNat ['0', '0', '7', '3'] :=
    @UnitText.digits '0' '0' '7' '3' 0 0 7 3 rfl rfl rfl rfl
  have hname : CharsText "step".toList "\\u0073tep".toList :=
    .cons (.unit hunit) (charsText_flatMap_writeChar "tep".toList)
  exact .object hgives
    (.filled
      (.more (.named isBlanks_nil (charsText_flatMap_writeChar _) isBlanks_nil
          (.spaced hspace isBlanks_nil))
        (.more (.named hspace (charsText_flatMap_writeChar _) isBlanks_nil
            (.spaced hspace isBlanks_nil))
          (.one (.named htab hname hspace (.spaced hspace isBlanks_nil))))))
    (.spaced hline hline)

/-- Of the two flaws of the document, the first in the order of the check is reported. -/
theorem ofJson_overrides_crowded :
    DocumentOf crowdedSettings crowded ∧ ofJson crowded = .error (.invalidConfig (.step 0)) :=
  have hflaw : ¬Binary32.IsPositive (standardWith crowdedSettings).step := by decide +kernel
  ⟨documentOf_crowded,
    ((ofJson_overrides documentOf_crowded).2 _).2 ⟨_, .step hflaw, rfl⟩⟩

end Ribbon.Config
