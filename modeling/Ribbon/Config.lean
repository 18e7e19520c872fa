import Ribbon.Json.Cursor
import Ribbon.Palette
import Ribbon.Sequence

/-!
# Configurations and errors

The settings of a ribbon, and everything that can keep it from being drawn.

## Main definitions

* `Ribbon.Config` — the settings.
* `Ribbon.Config.standard` — the settings used where none are given.
* `Ribbon.Config.Invalid` — why a configuration is refused.
* `Ribbon.Config.check` — the first reason to refuse a configuration.
* `Ribbon.Error` — the causes.
* `Ribbon.Error.message` — their wording.

## Main results

* `Ribbon.Config.check_eq_ok_iff` — what is accepted.
-/

set_option relaxedAutoImplicit false
set_option autoImplicit false

namespace Ribbon

/-! ## Configurations

The seven settings of a ribbon: what is grown and how it is drawn. A configuration is checked
before it is used, so that no number in it leads to geometry that is none.
-/

/-- The settings of a ribbon. -/
structure Config where
  /-- The sequence that grows, in notation. -/
  seed : String
  /-- How many generations it grows for. -/
  generations : UInt32
  /-- The length of a stroke, in the unit square. -/
  step : Float32
  /-- The width of the ribbon, as a part of `step`. -/
  thickness : Float32
  /-- The colours the ribbon runs through. -/
  palette : Palette
  /-- How far a turn moves the colour index. -/
  colorDelta : Float32
  /-- The lower right corner of the first cell. -/
  origin : Vec2
  deriving DecidableEq

namespace Config

/-- The settings used where none are given. -/
def standard : Config where
  seed := "-R"
  generations := 2
  step := 1 / 26
  thickness := 0.8
  palette := Palette.standard
  colorDelta := 0.02
  origin := ⟨1, 0⟩

/-- Why a configuration is refused. -/
inductive Invalid where
  /-- The length of a stroke is not a positive number. -/
  | step (value : Float32)
  /-- The width of the ribbon is negative or no number. -/
  | thickness (value : Float32)
  /-- The colour index would move by a negative amount or by no number. -/
  | colorDelta (value : Float32)
  /-- The first cell is nowhere. -/
  | origin
  /-- There is no colour to show. -/
  | palette
  deriving DecidableEq

/-- How a message shows a number. -/
def showNumber (x : Float32) : String :=
  Decimal.Style.plain.text x.toModel.unpack

/-- The wording of a reason. -/
def Invalid.message : Invalid → String
  | .step value => "step must be positive and finite, got " ++ showNumber value
  | .thickness value => "thickness must be non-negative and finite, got " ++ showNumber value
  | .colorDelta value => "color_delta must be non-negative and finite, got " ++ showNumber value
  | .origin => "origin must be finite"
  | .palette => "palette needs at least one color stop"

/-- Refuses a configuration for the first reason in the order of the settings. A palette is sound by
itself, and the seed is read later. -/
def check (c : Config) : Except Invalid Unit :=
  if !c.step.isFinite || c.step ≤ 0 then .error (.step c.step)
  else if !c.thickness.isFinite || c.thickness < 0 then .error (.thickness c.thickness)
  else if !c.colorDelta.isFinite || c.colorDelta < 0 then .error (.colorDelta c.colorDelta)
  else if !c.origin.isFinite then .error .origin
  else .ok ()

/-- What is accepted: all numbers finite, a positive step, and neither thickness nor colour delta
negative. -/
theorem check_eq_ok_iff {c : Config} :
    c.check = .ok () ↔
      (c.step.isFinite = true ∧ ¬c.step ≤ 0) ∧ (c.thickness.isFinite = true ∧ ¬c.thickness < 0) ∧
        (c.colorDelta.isFinite = true ∧ ¬c.colorDelta < 0) ∧ c.origin.isFinite = true := by
  rw [check]
  grind

/-- The sequence that the seed spells. -/
def seedSequence (c : Config) : Except Sequence.Malformed Sequence :=
  Sequence.parse c.seed

end Config

/-! ## Errors

Everything that can keep a ribbon from being drawn.
-/

/-- Why a file gives no text. -/
inductive Unreadable where
  /-- There is no such file. -/
  | notFound
  /-- Its bytes are not UTF-8. -/
  | notText
  deriving DecidableEq

/-- What keeps a ribbon from being drawn. -/
inductive Error where
  /-- A sequence is spelled with a foreign character. -/
  | malformedSymbol (cause : Sequence.Malformed)
  /-- A code stands for no symbol. -/
  | unknownSymbolCode (code : UInt8)
  /-- The mesh has more vertices than its indices can address. -/
  | indexOverflow (vertices limit : Nat)
  /-- A configuration is refused. -/
  | invalidConfig (cause : Config.Invalid)
  /-- A file gives no text. -/
  | unreadable (cause : Unreadable)
  /-- A document is at fault. -/
  | document (fault : Json.Fault)

/-- The wording of an error. What is wrong with a file or a document is left to who reports it. -/
def Error.message : Error → String
  | .malformedSymbol m =>
    "malformed symbol " ++ Text.quoteChar m.symbol ++ " at position " ++ Decimal.natText m.position
  | .unknownSymbolCode code => "unknown symbol code " ++ Decimal.natText code.toNat
  | .indexOverflow vertices limit =>
    "mesh needs " ++ Decimal.natText vertices ++ " vertices but 16-bit indices address at most "
      ++ Decimal.natText limit
  | .invalidConfig cause => "invalid configuration: " ++ cause.message
  | .unreadable _ => "failed to read configuration"
  | .document _ => "failed to parse configuration"

end Ribbon
