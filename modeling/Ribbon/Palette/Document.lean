import Ribbon.Config
import Ribbon.Json.Reader

/-!
# Vectors and palettes in documents

A vector is a list of its components, and a palette is the list of its stops.

## Main definitions

* `Ribbon.Vec2.read`, `Ribbon.Vec3.read`, `Ribbon.Vec4.read` — vectors of a document.
* `Ribbon.Palette.read` — the palette of a document.
* `Ribbon.Palette.ofJson`, `Ribbon.Palette.toJson` — palettes of whole texts.
-/

set_option relaxedAutoImplicit false
set_option autoImplicit false

namespace Ribbon

open Json

/-- Reads a pair. -/
def Vec2.read (cs : List Char) : Except Fault (Parsed Vec2) := do
  match ← tupleValue 2 cs with
  | ([x, y], rest) => return (⟨x, y⟩, rest)
  | (xs, _) => .error (.content (.invalidLength xs.length (.tuple 2)))

/-- Reads a triple. -/
def Vec3.read (cs : List Char) : Except Fault (Parsed Vec3) := do
  match ← tupleValue 3 cs with
  | ([x, y, z], rest) => return (⟨x, y, z⟩, rest)
  | (xs, _) => .error (.content (.invalidLength xs.length (.tuple 3)))

/-- Reads a colour. -/
def Vec4.read (cs : List Char) : Except Fault (Parsed Vec4) := do
  match ← tupleValue 4 cs with
  | ([x, y, z, w], rest) => return (⟨x, y, z, w⟩, rest)
  | (xs, _) => .error (.content (.invalidLength xs.length (.tuple 4)))

namespace Palette

/-- Reads a palette. That it has a stop is known when all of it has been read. -/
def read (cs : List Char) : Except Fault (Parsed Palette) := do
  let (stops, rest) ← listValue Vec4.read cs
  match ofStops? stops.toArray with
  | some p => return (p, rest)
  | none => .error (.content (.refused (Error.invalidConfig .palette).message))

/-- The palette of a text. -/
def ofJson (text : String) : Except Fault Palette :=
  document read text

/-- The written form of a palette. -/
def write (p : Palette) : List Char :=
  writeList (p.stops.toList.map fun v => writeSingles v.toList)

/-- The text of a palette. -/
def toJson (p : Palette) : String :=
  String.ofList p.write

end Palette

end Ribbon
