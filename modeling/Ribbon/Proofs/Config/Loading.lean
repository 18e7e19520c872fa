import Ribbon.Config.Document
import Ribbon.Proofs.Binary.Value
import Ribbon.Proofs.Json.Accepted

/-!
# Checking and loading configurations

A configuration is loaded from a file in steps, the last of which is its check.

## Main definitions

* `Ribbon.Binary32.IsPositive`, `Ribbon.Binary32.IsNonneg` — ranges of numbers.
* `Ribbon.Config.IsSound` — configurations without a flaw.
* `Ribbon.Config.FirstFlaw` — the first flaw.
* `Ribbon.Config.Loads`, `Ribbon.Config.LoadFails` — what the bytes of a file come to.

## Main results

* `Ribbon.Config.check_eq_ok_iff_isSound`, `Ribbon.Config.check_eq_error_iff` — what the check finds.
* `Ribbon.Config.ofJson_eq_ok_iff`, `Ribbon.Config.ofJson_eq_error_iff` — loading a text.
* `Ribbon.Config.ofFile_eq_ok_iff`, `Ribbon.Config.ofFile_eq_error_iff` — loading a file.
-/

set_option relaxedAutoImplicit false
set_option autoImplicit false

namespace Ribbon

/-! ## The first flaw of a configuration

A configuration is sound if its numbers have values within their ranges. An infinity and a NaN have no
value, and both zeros have the value zero, so that a negative zero is no step but may be a thickness.
The check of a configuration finds its first flaw in the order step, thickness, colour delta, origin.
-/

namespace Binary32

/-- Finite numbers above zero. -/
def IsPositive (x : Float32) : Prop :=
  x.isFinite = true ∧ 0 < value x

/-- Finite numbers from zero on. Negative zero is one of them. -/
def IsNonneg (x : Float32) : Prop :=
  x.isFinite = true ∧ 0 ≤ value x

instance : DecidablePred IsPositive := fun _ => inferInstanceAs (Decidable (_ ∧ _))

instance : DecidablePred IsNonneg := fun _ => inferInstanceAs (Decidable (_ ∧ _))

variable {x : Float32}

/-- A number is refused as a length just if it is not positive. A NaN is not below zero either, and is
refused because it is not finite. -/
lemma not_isPositive_iff : (!x.isFinite || decide (x ≤ 0)) = true ↔ ¬IsPositive x := by
  have hzero : (0 : Float32).isFinite = true := rfl
  rw [Bool.or_eq_true, Bool.not_eq_true', decide_eq_true_iff, IsPositive]
  cases hx : x.isFinite with
  | false => simp
  | true => simp [le_iff hx hzero]

/-- A number is refused as an amount just if it is negative or not finite. -/
lemma not_isNonneg_iff : (!x.isFinite || decide (x < 0)) = true ↔ ¬IsNonneg x := by
  have hzero : (0 : Float32).isFinite = true := rfl
  rw [Bool.or_eq_true, Bool.not_eq_true', decide_eq_true_iff, IsNonneg]
  cases hx : x.isFinite with
  | false => simp
  | true => simp [lt_iff hx hzero]

end Binary32

namespace Config

open Binary32 (IsPositive IsNonneg)

/-- Configurations whose numbers are within their ranges. -/
structure IsSound (c : Config) : Prop where
  step : IsPositive c.step
  thickness : IsNonneg c.thickness
  colorDelta : IsNonneg c.colorDelta
  origin : c.origin.x.isFinite = true ∧ c.origin.y.isFinite = true

/-- The first number of a configuration that is not within its range, in the order of the check. -/
inductive FirstFlaw (c : Config) : Invalid → Prop
  | step (flaw : ¬IsPositive c.step) : FirstFlaw c (.step c.step)
  | thickness (step : IsPositive c.step) (flaw : ¬IsNonneg c.thickness) :
      FirstFlaw c (.thickness c.thickness)
  | colorDelta (step : IsPositive c.step) (thickness : IsNonneg c.thickness)
      (flaw : ¬IsNonneg c.colorDelta) : FirstFlaw c (.colorDelta c.colorDelta)
  | origin (step : IsPositive c.step) (thickness : IsNonneg c.thickness)
      (colorDelta : IsNonneg c.colorDelta)
      (flaw : ¬(c.origin.x.isFinite = true ∧ c.origin.y.isFinite = true)) : FirstFlaw c .origin

variable {c : Config} {cause : Invalid}

/-- The check by ranges of values. -/
lemma check_eq : c.check =
    if ¬IsPositive c.step then .error (.step c.step)
    else if ¬IsNonneg c.thickness then .error (.thickness c.thickness)
    else if ¬IsNonneg c.colorDelta then .error (.colorDelta c.colorDelta)
    else if ¬(c.origin.x.isFinite = true ∧ c.origin.y.isFinite = true) then .error .origin
    else .ok () := by
  simp only [check, Binary32.not_isPositive_iff, Binary32.not_isNonneg_iff, Vec2.isFinite,
    Bool.not_eq_true', ← Bool.not_eq_true, Bool.and_eq_true]

/-- **The check passes sound configurations**, and no others. -/
theorem check_eq_ok_iff_isSound : c.check = .ok () ↔ c.IsSound := by
  rw [check_eq]
  constructor
  · intro h
    split_ifs at h with hstep hthickness hdelta horigin
    exact ⟨hstep, hthickness, hdelta, horigin⟩
  · rintro ⟨hstep, hthickness, hdelta, horigin⟩
    rw [if_neg (not_not.2 hstep), if_neg (not_not.2 hthickness), if_neg (not_not.2 hdelta),
      if_neg (not_not.2 horigin)]

/-- **The check finds the first flaw.** -/
theorem check_eq_error_iff : c.check = .error cause ↔ c.FirstFlaw cause := by
  rw [check_eq]
  constructor
  · intro h
    split_ifs at h with hstep hthickness hdelta horigin <;> cases h
    · exact .origin hstep hthickness hdelta horigin
    · exact .colorDelta hstep hthickness hdelta
    · exact .thickness hstep hthickness
    · exact .step hstep
  · intro h
    cases h with
    | step hstep => rw [if_pos hstep]
    | thickness hstep hthickness => rw [if_neg (not_not.2 hstep), if_pos hthickness]
    | colorDelta hstep hthickness hdelta =>
      rw [if_neg (not_not.2 hstep), if_neg (not_not.2 hthickness), if_pos hdelta]
    | origin hstep hthickness hdelta horigin =>
      rw [if_neg (not_not.2 hstep), if_neg (not_not.2 hthickness), if_neg (not_not.2 hdelta),
        if_pos horigin]

end Config

end Ribbon

namespace Ribbon.Config

open Json

/-! ## Loading configurations

Loading has three steps: the bytes of a file are read as text, the text is read as a configuration, and
the configuration is checked. A file is loaded if all of them succeed, and otherwise refused by the first
that does not.
-/

variable {file : Option ByteArray} {text : String} {c : Config} {e : Error}

/-- The bytes of a file are the text of a configuration that passes its check. -/
inductive Loads (file : Option ByteArray) (c : Config) : Prop
  | read {text : String} (is_text : fileText file = .ok text)
      (is_document : document read text = .ok c) (is_valid : c.check = .ok ())

/-- What goes wrong first with the bytes of a file: they may be no text, the text may be no
configuration, and the configuration may not pass its check. -/
inductive LoadFails (file : Option ByteArray) : Error → Prop
  | unreadable {cause : Unreadable} (no_text : fileText file = .error cause) :
      LoadFails file (.unreadable cause)
  | document {text : String} {fault : Fault} (is_text : fileText file = .ok text)
      (no_document : document read text = .error fault) : LoadFails file (.document fault)
  | invalid {text : String} {c : Config} {cause : Invalid} (is_text : fileText file = .ok text)
      (is_document : document read text = .ok c) (is_invalid : c.check = .error cause) :
      LoadFails file (.invalidConfig cause)

/-- A text gives the configuration that it is the document of, if that passes its check. -/
theorem ofJson_eq_ok_iff :
    ofJson text = .ok c ↔ document read text = .ok c ∧ c.check = .ok () := by
  simp only [ofJson, bind_eq_ok, mapError_eq_ok]
  constructor
  · rintro ⟨d, hread, u, hcheck, h⟩
    cases h
    exact ⟨hread, hcheck⟩
  · rintro ⟨hread, hcheck⟩
    exact ⟨c, hread, (), hcheck, rfl⟩

/-- A text gives no configuration if it is the document of none, or of one that does not pass its
check. -/
theorem ofJson_eq_error_iff :
    ofJson text = .error e ↔
      (∃ fault, document read text = .error fault ∧ .document fault = e) ∨
        ∃ c cause, document read text = .ok c ∧ c.check = .error cause ∧ .invalidConfig cause = e := by
  simp only [ofJson, bind_eq_error, mapError_eq_ok, mapError_eq_error]
  constructor
  · rintro (hfault | ⟨c, hread, ⟨cause, hcheck, he⟩ | ⟨-, -, h⟩⟩)
    · exact .inl hfault
    · exact .inr ⟨c, cause, hread, hcheck, he⟩
    · cases h
  · rintro (hfault | ⟨c, cause, hread, hcheck, he⟩)
    · exact .inl hfault
    · exact .inr ⟨c, hread, .inl ⟨cause, hcheck, he⟩⟩

/-- **Which files are loaded.** -/
theorem ofFile_eq_ok_iff : ofFile file = .ok c ↔ Loads file c := by
  simp only [ofFile, bind_eq_ok, mapError_eq_ok, ofJson_eq_ok_iff]
  constructor
  · rintro ⟨text, htext, hread, hcheck⟩
    exact .read htext hread hcheck
  · rintro ⟨htext, hread, hcheck⟩
    exact ⟨_, htext, hread, hcheck⟩

/-- **Which files are not loaded**, and for what reason. -/
theorem ofFile_eq_error_iff : ofFile file = .error e ↔ LoadFails file e := by
  simp only [ofFile, bind_eq_error, mapError_eq_ok, mapError_eq_error, ofJson_eq_error_iff]
  constructor
  · rintro (⟨cause, htext, rfl⟩ | ⟨text, htext, ⟨fault, hread, rfl⟩ | ⟨c, cause, hread, hcheck, rfl⟩⟩)
    · exact .unreadable htext
    · exact .document htext hread
    · exact .invalid htext hread hcheck
  · intro h
    cases h with
    | unreadable htext => exact .inl ⟨_, htext, rfl⟩
    | document htext hread => exact .inr ⟨_, htext, .inl ⟨_, hread, rfl⟩⟩
    | invalid htext hread hcheck => exact .inr ⟨_, htext, .inr ⟨_, _, hread, hcheck, rfl⟩⟩

end Ribbon.Config
