import Ribbon.Palette.Document

/-!
# Configurations in documents

A configuration is an object with at most seven known members, or the list of their values. What is
not given keeps its standard value, and unknown members are skipped.

## Main definitions

* `Ribbon.Config.Draft` — the settings that have been given.
* `Ribbon.Config.read` — reads a configuration.
* `Ribbon.Config.ofJson` — the checked configuration of a text.
* `Ribbon.Config.ofFile` — the checked configuration of a file.
* `Ribbon.Config.toJson` — the text of a configuration.
-/

set_option relaxedAutoImplicit false
set_option autoImplicit false

namespace Ribbon.Config

open Json

/-- The name of the record in messages. -/
def recordName : String := "RibbonConfig"

/-- The settings that a document has given so far. -/
structure Draft where
  seed : Option String
  generations : Option UInt32
  step : Option Float32
  thickness : Option Float32
  palette : Option Palette
  colorDelta : Option Float32
  origin : Option Vec2

/-- The draft with nothing given. -/
def Draft.empty : Draft := ⟨none, none, none, none, none, none, none⟩

/-- The configuration of a draft: what is not given is standard. -/
def Draft.config (d : Draft) : Config where
  seed := d.seed.getD standard.seed
  generations := d.generations.getD standard.generations
  step := d.step.getD standard.step
  thickness := d.thickness.getD standard.thickness
  palette := d.palette.getD standard.palette
  colorDelta := d.colorDelta.getD standard.colorDelta
  origin := d.origin.getD standard.origin

/-- Reads a number of generations. -/
def readGenerations (cs : List Char) : Except Fault (Parsed UInt32) := do
  let (n, rest) ← countBelow .count32 UInt32.size cs
  return (n.toUInt32, rest)

/-- Reads the member with the given name. -/
def readMember (name : String) (d : Draft) (cs : List Char) : Except Fault (Parsed Draft) := do
  if name == "seed" then
    let (x, rest) ← once name d.seed stringValue cs
    return ({ d with seed := some x }, rest)
  else if name == "generations" then
    let (x, rest) ← once name d.generations readGenerations cs
    return ({ d with generations := some x }, rest)
  else if name == "step" then
    let (x, rest) ← once name d.step singleValue cs
    return ({ d with step := some x }, rest)
  else if name == "thickness" then
    let (x, rest) ← once name d.thickness singleValue cs
    return ({ d with thickness := some x }, rest)
  else if name == "palette" then
    let (x, rest) ← once name d.palette Palette.read cs
    return ({ d with palette := some x }, rest)
  else if name == "color_delta" then
    let (x, rest) ← once name d.colorDelta singleValue cs
    return ({ d with colorDelta := some x }, rest)
  else if name == "origin" then
    let (x, rest) ← once name d.origin Vec2.read cs
    return ({ d with origin := some x }, rest)
  else return (d, ← unknownMember cs)

/-- An item of a configuration written as a list, unless the list ends here. -/
def readItem {α : Type} (first : Bool) (value : List Char → Except Fault (Parsed α))
    (cs : List Char) : Except Fault (Parsed (Option α)) := do
  match ← nextItem? first cs with
  | none => return (none, cs)
  | some item =>
    let (x, rest) ← value item
    return (some x, rest)

/-- The values of a configuration written as a list, in the order of the settings. -/
def readItems (cs : List Char) : Except Fault (Parsed Draft) := do
  let (seed, rest) ← readItem true stringValue cs
  let (generations, rest) ← readItem false readGenerations rest
  let (step, rest) ← readItem false singleValue rest
  let (thickness, rest) ← readItem false singleValue rest
  let (palette, rest) ← readItem false Palette.read rest
  let (colorDelta, rest) ← readItem false singleValue rest
  let (origin, rest) ← readItem false Vec2.read rest
  return (⟨seed, generations, step, thickness, palette, colorDelta, origin⟩, ← endList rest)

/-- Reads a configuration. -/
def read (cs : List Char) : Except Fault (Parsed Config) := do
  let (c, rest) ← token cs
  if c = '[' then
    let (d, rest) ← readItems rest
    return (d.config, rest)
  else if c = '\x7b' then
    let (d, rest) ← members readMember Draft.empty rest
    return (d.config, rest)
  else mismatch (.record recordName) c rest

/-- The checked configuration of a text. -/
def ofJson (text : String) : Except Error Config := do
  let c ← (document read text).mapError .document
  c.check.mapError .invalidConfig
  return c

/-- The text of the bytes of a file, if there is a file. -/
def fileText : Option ByteArray → Except Unreadable String
  | none => .error .notFound
  | some bytes =>
    match String.fromUTF8? bytes with
    | some text => .ok text
    | none => .error .notText

/-- The checked configuration of the bytes of a file, if there is a file. -/
def ofFile (file : Option ByteArray) : Except Error Config := do
  ofJson (← (fileText file).mapError .unreadable)

/-- The text of a configuration. -/
def toJson (c : Config) : String :=
  String.ofList <| writeObject
    [("seed", writeString c.seed), ("generations", writeCount c.generations.toNat),
      ("step", writeSingle c.step), ("thickness", writeSingle c.thickness),
      ("palette", c.palette.write), ("color_delta", writeSingle c.colorDelta),
      ("origin", writeSingles c.origin.toList)]

end Ribbon.Config
