import Ribbon.Config.Document
import Ribbon.Proofs.Json.Skipped
import Ribbon.Proofs.Json.Values

/-!
# Settings in a document

The values of the settings are read, however they are written, and so are the members that give them.

## Main definitions

* `Ribbon.Vec2.SpelledBy`, `Ribbon.Vec4.SpelledBy`, `Ribbon.Palette.SpelledBy` — the ways to write a
  pair, a colour and a palette.
* `Ribbon.Config.Setting` — the settings.
* `Ribbon.Config.Setting.SpelledBy` — the ways to write the value of a setting.
* `Ribbon.Config.Draft.get`, `Ribbon.Config.Draft.set` — drafts by settings.

## Main results

* `Ribbon.Vec2.SpelledBy.restores`, `Ribbon.Vec4.SpelledBy.restores`,
  `Ribbon.Palette.SpelledBy.restores` — they are read.
* `Ribbon.Config.Setting.SpelledBy.restores` — the value of a setting is read.
* `Ribbon.Config.readMember_setting`, `Ribbon.Config.readMember_unknown` — all members.
* `Ribbon.Config.fills_setting` — one member after the other.
* `Ribbon.Config.ignoresBlanks_readMember` — blanks around the colon do not matter.
-/

set_option relaxedAutoImplicit false
set_option autoImplicit false

namespace Ribbon

open Json

/-! ## Vectors and palettes are read, however they are written

A vector is written as the list of its components, and a palette as the list of its stops, in whatever
layout.
-/

variable {text : List Char}

namespace Vec2

variable {v : Vec2}

/-- The ways to write a pair. -/
def SpelledBy (v : Vec2) : List Char → Prop :=
  ListText SingleText v.toList

/-- A pair is read when its components are. -/
lemma restores_of_tuple (h : Restores (tupleValue 2) text v.toList) : Restores read text v :=
  ⟨h.starts, fun hrest => by
    rw [read, h.read_append hrest]
    rfl⟩

/-- A pair is read, however it is written. -/
theorem SpelledBy.restores (h : v.SpelledBy text) : Restores read text v :=
  restores_of_tuple (ListText.restores_tuple h)

end Vec2

namespace Vec4

variable {v : Vec4}

/-- The ways to write a colour. -/
def SpelledBy (v : Vec4) : List Char → Prop :=
  ListText SingleText v.toList

/-- A colour is read when its components are. -/
lemma restores_of_tuple (h : Restores (tupleValue 4) text v.toList) : Restores read text v :=
  ⟨h.starts, fun hrest => by
    rw [read, h.read_append hrest]
    rfl⟩

/-- A colour is read, however it is written. -/
theorem SpelledBy.restores (h : v.SpelledBy text) : Restores read text v :=
  restores_of_tuple (ListText.restores_tuple h)

end Vec4

namespace Palette

variable {p : Palette}

/-- The ways to write a palette. It has a stop. -/
def SpelledBy (p : Palette) : List Char → Prop :=
  ListText Vec4.SpelledBy p.stops.toList

/-- A palette is read when its stops are. -/
lemma restores_of_list (h : Restores (listValue Vec4.read) text p.stops.toList) :
    Restores read text p := by
  refine ⟨h.starts, fun hrest => ?_⟩
  rw [read, h.read_append hrest]
  simp [ofStops?, p.size_pos]
  rfl

/-- A palette is read, however it is written. -/
theorem SpelledBy.restores (h : p.SpelledBy text) : Restores read text p :=
  restores_of_list (ListText.restores h Vec4.SpelledBy.restores)

end Palette

end Ribbon

namespace Ribbon.Config

open Json

/-! ## The settings in a document

The seven settings are read alike. Each has a name, a type and a reader for its values, and the member
with its name is read by that reader, if the setting has not been given before. A member with another
name is skipped.
-/

/-- A number of generations is read when it is as a count. -/
lemma restores_generations_of_count {n : UInt32} {text : List Char}
    (h : Restores (countBelow .count32 UInt32.size) text n.toNat) : Restores readGenerations text n := by
  refine ⟨h.starts, fun hrest => ?_⟩
  rw [readGenerations, h.read_append hrest]
  exact congrArg (fun m => Except.ok (m, _)) UInt32.ofNat_toNat

/-! ### Settings -/

/-- The settings of a configuration. -/
inductive Setting where
  | seed
  | generations
  | step
  | thickness
  | palette
  | colorDelta
  | origin
  deriving DecidableEq

namespace Setting

/-- What a setting is set to. -/
abbrev Value : Setting → Type
  | seed => String
  | generations => UInt32
  | step | thickness | colorDelta => Float32
  | palette => Palette
  | origin => Vec2

/-- The name of a setting in a document. -/
def name : Setting → String
  | seed => "seed"
  | generations => "generations"
  | step => "step"
  | thickness => "thickness"
  | palette => "palette"
  | colorDelta => "color_delta"
  | origin => "origin"

/-- The ways to write the value of a setting. -/
def SpelledBy : (f : Setting) → f.Value → List Char → Prop
  | seed => StringText
  | generations => fun n => NumberText (.integer n.toNat)
  | step | thickness | colorDelta => SingleText
  | palette => Palette.SpelledBy
  | origin => Vec2.SpelledBy

/-- The reader of the value of a setting. -/
def read : (f : Setting) → List Char → Except Fault (Parsed f.Value)
  | seed => stringValue
  | generations => readGenerations
  | step | thickness | colorDelta => singleValue
  | palette => Palette.read
  | origin => Vec2.read

variable {f : Setting} {text : List Char}

/-- The value of a setting is read, however it is written. -/
theorem SpelledBy.restores {x : f.Value} (h : f.SpelledBy x text) : Restores f.read text x := by
  cases f with
  | seed => exact StringText.restores h
  | generations => exact restores_generations_of_count (NumberText.restores h _ x.toNat_lt)
  | step | thickness | colorDelta => exact SingleText.restores h
  | palette => exact Palette.SpelledBy.restores h
  | origin => exact Vec2.SpelledBy.restores h

/-- The value of a setting is found behind blanks. -/
lemma read_append {blanks : List Char} (h : IsBlanks blanks) (f : Setting) (cs : List Char) :
    f.read (blanks ++ cs) = f.read cs := by
  cases f <;>
  simp only [read, stringValue, readGenerations, countBelow, numberValue, singleValue, Palette.read,
    listValue, Vec2.read, tupleValue, h.token_append]

end Setting

/-! ### Drafts -/

namespace Draft

/-- What a draft has for a setting. -/
def get (d : Draft) : (f : Setting) → Option f.Value
  | .seed => d.seed
  | .generations => d.generations
  | .step => d.step
  | .thickness => d.thickness
  | .palette => d.palette
  | .colorDelta => d.colorDelta
  | .origin => d.origin

/-- The draft with a setting set. -/
def set (d : Draft) : (f : Setting) → f.Value → Draft
  | .seed, x => { d with seed := some x }
  | .generations, x => { d with generations := some x }
  | .step, x => { d with step := some x }
  | .thickness, x => { d with thickness := some x }
  | .palette, x => { d with palette := some x }
  | .colorDelta, x => { d with colorDelta := some x }
  | .origin, x => { d with origin := some x }

/-- Setting one setting leaves the others as they are. -/
lemma get_set (d : Draft) (f : Setting) (x : f.Value) :
    (d.set f x).get = Function.update d.get f (some x) := by
  funext g
  cases f <;> cases g <;> rfl

/-- The empty draft has no setting. -/
lemma get_empty (f : Setting) : empty.get f = none := by
  cases f <;> rfl

end Draft

/-! ### Members -/

/-- The member of a setting is read by the reader of its value. -/
theorem readMember_setting (f : Setting) (d : Draft) (cs : List Char) :
    readMember f.name d cs = (do
      let (x, rest) ← once f.name (d.get f) f.read cs
      return (d.set f x, rest)) := by
  cases f <;> rfl

/-- A setting that has not been given takes its value, and the other members take what follows. -/
lemma fills_setting {f : Setting} {x : f.Value} {text : List Char} (hvalue : Restores f.read text x)
    {d last : Draft} (hempty : d.get f = none) {ms : List (String × List Char)}
    (tail : Fills readMember ms (d.set f x) last) :
    Fills readMember ((f.name, text) :: ms) d last := by
  refine .cons (fun {rest} hrest => ?_) tail
  rw [readMember_setting, hempty, hvalue.once f.name hrest]
  rfl

/-- A member with an unknown name is skipped. -/
theorem readMember_unknown {name : String} (h : ∀ f : Setting, name ≠ f.name) (d : Draft)
    (cs : List Char) : readMember name d cs = (do return (d, ← unknownMember cs)) := by
  have hseed : name ≠ "seed" := h .seed
  have hgenerations : name ≠ "generations" := h .generations
  have hstep : name ≠ "step" := h .step
  have hthickness : name ≠ "thickness" := h .thickness
  have hpalette : name ≠ "palette" := h .palette
  have hdelta : name ≠ "color_delta" := h .colorDelta
  have horigin : name ≠ "origin" := h .origin
  simp only [readMember, beq_iff_eq, hseed, hgenerations, hstep, hthickness, hpalette, hdelta, horigin,
    if_false]

/-- Blanks may stand around the colon of a member. -/
theorem ignoresBlanks_readMember : IgnoresBlanks readMember := by
  intro name d cs p middle before h hmiddle hbefore
  by_cases hname : ∃ f : Setting, name = f.name
  · obtain ⟨f, rfl⟩ := hname
    have honce : once f.name (d.get f) f.read (middle ++ ':' :: (before ++ cs)) =
        once f.name (d.get f) f.read (':' :: cs) := by
      simp only [once, hmiddle.readColon_append, ok_bind, Setting.read_append hbefore]
      rfl
    rw [readMember_setting] at h ⊢
    rw [honce, h]
  · rw [not_exists] at hname
    rw [readMember_unknown hname] at h ⊢
    obtain ⟨rest, hskip, hp⟩ := bind_eq_ok.1 h
    refine bind_eq_ok.2 ⟨rest, ?_, hp⟩
    rw [unknownMember, hmiddle.readColon_append]
    exact skipValue_blanks hskip hbefore

end Ribbon.Config
