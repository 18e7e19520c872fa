import Ribbon.Proofs.Config.Settings
import Ribbon.Proofs.Json.Written

/-!
# Configurations survive their text

A configuration that is accepted, with a palette of finite colours, is read back from its text bit by
bit. Its seed may be any string, and its numbers any finite numbers: negative zero, subnormal numbers
and those that are written with an exponent are among them.

This is a property of the reader as it is. It does not look for the nearest double of a decimal, but
rounds one product or quotient of two doubles, the digits and the power of ten, and then rounds the
result to single precision (`Ribbon.Json.Moderate.exists_holds`). A reader that took the nearest double
first would not do: it would read `7.038531e-26`, which is how the number with the bits `0x15ae43fd` is
written, as the number above that one, and its negative likewise
(`Ribbon.Decimal.rounded_rounded_exceptional`). All other numbers keep a margin that is enough for either
reader (`Ribbon.Decimal.safe_shortest`).

## Main definitions

* `Ribbon.Palette.IsFinite` — palettes of finite colours.
* `Ribbon.Config.fields` — the members of the text.

## Main results

* `Ribbon.Vec2.restores`, `Ribbon.Vec4.restores`, `Ribbon.Palette.restores` — the parts.
* `Ribbon.Palette.ofJson_eq_ok` — palettes by themselves.
* `Ribbon.Config.fills_fields` — one member after the other.
* `Ribbon.Config.ofJson_toJson` — whole texts.
-/

set_option relaxedAutoImplicit false
set_option autoImplicit false

namespace Ribbon

open Json

/-- A finite pair is read back. -/
theorem Vec2.restores {v : Vec2} (h : v.isFinite = true) :
    Restores Vec2.read (writeSingles v.toList) v := by
  have hcomponents : ∀ x ∈ v.toList, x.isFinite = true := by
    simpa [Vec2.isFinite, Vec2.toList] using h
  exact restores_of_tuple (restores_singles hcomponents)

/-- A colour with finite components is read back. -/
theorem Vec4.restores {v : Vec4} (h : ∀ x ∈ v.toList, x.isFinite = true) :
    Restores Vec4.read (writeSingles v.toList) v :=
  restores_of_tuple (restores_singles h)

namespace Palette

/-- Whether no component of a colour is infinite or NaN. -/
def IsFinite (p : Palette) : Prop :=
  ∀ v ∈ p.stops, ∀ x ∈ v.toList, x.isFinite = true

instance (p : Palette) : Decidable p.IsFinite :=
  inferInstanceAs (Decidable (∀ v ∈ p.stops, ∀ x ∈ v.toList, x.isFinite = true))

/-- A palette of finite colours is read back. -/
theorem restores {p : Palette} (h : p.IsFinite) : Restores Palette.read p.write p := by
  have hstops : List.Forall₂ (Restores Vec4.read)
      (p.stops.toList.map fun v => writeSingles v.toList) p.stops.toList := by
    rw [List.forall₂_map_left_iff, List.forall₂_same]
    exact fun v hv => Vec4.restores (h v (Array.mem_def.2 hv))
  exact restores_of_list (restores_list hstops)

/-- A palette of finite colours survives its text. -/
theorem ofJson_eq_ok {p : Palette} (h : p.IsFinite) : ofJson p.toJson = .ok p :=
  (restores h).document

end Palette

namespace Config

variable {c : Config}

/-- A number of generations is read back. -/
lemma restores_generations (n : UInt32) : Restores readGenerations (writeCount n.toNat) n :=
  restores_generations_of_count (restores_count .count32 n.toNat_lt (by decide))

/-- The members of the text of a configuration, with their written values. -/
def fields (c : Config) : List (String × List Char) :=
  [("seed", writeString c.seed), ("generations", writeCount c.generations.toNat),
    ("step", writeSingle c.step), ("thickness", writeSingle c.thickness),
    ("palette", c.palette.write), ("color_delta", writeSingle c.colorDelta),
    ("origin", writeSingles c.origin.toList)]

/-- The draft with everything given. -/
def draft (c : Config) : Draft :=
  ⟨c.seed, c.generations, c.step, c.thickness, c.palette, c.colorDelta, c.origin⟩

/-- The fields give the configuration, one setting after the other. -/
theorem fills_fields (hcheck : c.check = .ok ()) (hpalette : c.palette.IsFinite) :
    Fills readMember c.fields Draft.empty c.draft := by
  obtain ⟨⟨hstep, -⟩, ⟨hthickness, -⟩, ⟨hdelta, -⟩, horigin⟩ := check_eq_ok_iff.1 hcheck
  exact fills_setting (f := .seed) (restores_string c.seed) rfl <|
    fills_setting (f := .generations) (restores_generations c.generations) rfl <|
    fills_setting (f := .step) (restores_single hstep) rfl <|
    fills_setting (f := .thickness) (restores_single hthickness) rfl <|
    fills_setting (f := .palette) (Palette.restores hpalette) rfl <|
    fills_setting (f := .colorDelta) (restores_single hdelta) rfl <|
    fills_setting (f := .origin) (Vec2.restores horigin) rfl <| .nil _

/-- The text of a configuration is read as the configuration. -/
lemma restores (hcheck : c.check = .ok ()) (hpalette : c.palette.IsFinite) :
    Restores Config.read (writeObject c.fields) c where
  starts := ⟨_, _, rfl, by decide, by decide⟩
  read_append {rest} _ := by
    have hbracket : isBlank '\x7b' = false := by decide
    have hmembers := (fills_fields hcheck hpalette).members_separated rest
    rw [writeMembers] at hmembers
    rw [writeObject, List.cons_append, List.cons_append, List.append_assoc, List.singleton_append,
      Config.read, token_cons hbracket]
    simp [hmembers]
    rfl

/-- **A configuration survives its text.** -/
theorem ofJson_toJson (hcheck : c.check = .ok ()) (hpalette : c.palette.IsFinite) :
    ofJson c.toJson = .ok c := by
  have hdocument : document Config.read c.toJson = .ok c := (restores hcheck hpalette).document
  rw [ofJson, hdocument]
  simp only [Except.mapError, ok_bind, hcheck]
  rfl

/-- A configuration that is hard to write: its seed is full of escapes, its step is the exceptional
decimal, and among its other numbers are a negative zero, the least subnormal number, the greatest
number and both kinds of exponent. -/
def intricate : Config where
  seed := "-\"\\R\n\x01\x7fé"
  generations := 4294967295
  step := .ofBits 0x15ae43fd
  thickness := .ofBits 0x80000000
  palette := ⟨#[⟨.ofBits 1, .ofBits 0x7f7fffff, .ofBits 0x00800000, .ofBits 0x95ae43fd⟩], by decide⟩
  colorDelta := .ofBits 0x5a0e1bca
  origin := ⟨.ofBits 0xff7fffff, 1 / 26⟩

/-- The configuration that is hard to write is accepted, and read back from its text. -/
theorem ofJson_toJson_intricate :
    intricate.check = .ok () ∧ intricate.palette.IsFinite ∧
      ofJson intricate.toJson = .ok intricate :=
  have hcheck : intricate.check = .ok () := by decide +kernel
  have hpalette : intricate.palette.IsFinite := by decide +kernel
  ⟨hcheck, hpalette, ofJson_toJson hcheck hpalette⟩

end Config

end Ribbon
