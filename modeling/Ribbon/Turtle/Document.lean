import Ribbon.Palette.Document
import Ribbon.Turtle

/-!
# Turtles in documents

A turtle is an object with three fields, all of which have to be given, or the list of their values.

## Main definitions

* `Ribbon.Turtle.read` — reads a turtle.
* `Ribbon.Turtle.ofJson`, `Ribbon.Turtle.toJson` — turtles of whole texts.
-/

set_option relaxedAutoImplicit false
set_option autoImplicit false

namespace Ribbon.Turtle

open Json

/-- The name of the record in messages. -/
def recordName : String := "RibbonTurtleState"

/-- The fields of a turtle that have been read. -/
structure Draft where
  position : Option Vec3
  heading : Option Nat
  colorIndex : Option Float32

/-- Reads a heading, which is any 64-bit number. -/
def readHeading (cs : List Char) : Except Fault (Parsed Nat) :=
  countBelow .count64 UInt64.size cs

/-- Reads the member with the given name. -/
def readMember (name : String) (d : Draft) (cs : List Char) : Except Fault (Parsed Draft) := do
  if name == "position" then
    let (v, rest) ← once name d.position Vec3.read cs
    return ({ d with position := some v }, rest)
  else if name == "heading" then
    let (n, rest) ← once name d.heading readHeading cs
    return ({ d with heading := some n }, rest)
  else if name == "color_index" then
    let (x, rest) ← once name d.colorIndex singleValue cs
    return ({ d with colorIndex := some x }, rest)
  else return (d, ← unknownMember cs)

/-- A field that has to be given. -/
def required {α : Type} (name : String) : Option α → Except Fault α
  | some x => .ok x
  | none => .error (.content (.missingField name))

/-- The turtle of a draft, if no field is missing. -/
def Draft.finish (d : Draft) : Except Fault Turtle := do
  let position ← required "position" d.position
  let heading ← required "heading" d.heading
  let colorIndex ← required "color_index" d.colorIndex
  return ⟨position, heading, colorIndex⟩

/-- The item number `n` of a turtle written as a list. -/
def readItem {α : Type} (n : Nat) (value : List Char → Except Fault (Parsed α)) (cs : List Char) :
    Except Fault (Parsed α) := do
  match ← nextItem? (n == 0) cs with
  | some item => value item
  | none => .error (.content (.invalidLength n (.recordList recordName 3)))

/-- Reads a turtle. -/
def read (cs : List Char) : Except Fault (Parsed Turtle) := do
  let (c, rest) ← token cs
  if c = '[' then
    let (position, rest) ← readItem 0 Vec3.read rest
    let (heading, rest) ← readItem 1 readHeading rest
    let (colorIndex, rest) ← readItem 2 singleValue rest
    return (⟨position, heading, colorIndex⟩, ← endList rest)
  else if c = '\x7b' then
    let (d, rest) ← members readMember ⟨none, none, none⟩ rest
    return (← d.finish, rest)
  else mismatch (.record recordName) c rest

/-- The turtle of a text. -/
def ofJson (text : String) : Except Fault Turtle :=
  document read text

/-- The text of a turtle. -/
def toJson (t : Turtle) : String :=
  String.ofList <| writeObject
    [("position", writeSingles t.position.toList), ("heading", writeCount t.heading),
      ("color_index", writeSingle t.colorIndex)]

end Ribbon.Turtle
