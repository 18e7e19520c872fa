import Ribbon.Json.Reader
import Ribbon.Symbol

/-!
# Symbols in documents

A symbol is written as its name, and also read from an object whose only member has that name and
the value `null`.

## Main definitions

* `Ribbon.Symbol.read` — reads a symbol.
* `Ribbon.Symbol.ofJson` — the symbol of a whole text.
* `Ribbon.Symbol.toJson` — the text of a symbol.
-/

set_option relaxedAutoImplicit false
set_option autoImplicit false

namespace Ribbon.Symbol

open Json

/-- The symbol of a name in a document. -/
def named (name : String) : Except Fault Symbol :=
  match ofName? name with
  | some s => .ok s
  | none => .error (.content (.unknownVariant name (all.map Symbol.name)))

/-- The value `null`. -/
def readNothing (cs : List Char) : Except Fault (List Char) := do
  let (c, rest) ← token cs
  if c = 'n' then readWord ['u', 'l', 'l'] rest else mismatch .nothing c rest

/-- The name that opens an object. -/
def readVariant (cs : List Char) : Except Fault (Parsed String) := do
  let (c, rest) ← token cs
  if c = '\x22' then readString rest else mismatch .variant c rest

/-- Reads a symbol. -/
def read (cs : List Char) : Except Fault (Parsed Symbol) := do
  let (c, rest) ← token cs
  if c = '\x22' then
    let (name, rest) ← readString rest
    return (← named name, rest)
  else if c = '\x7b' then
    let (name, rest) ← readVariant rest
    let s ← named name
    let rest ← readNothing (← readColon rest)
    return (s, ← endObject rest)
  else .error .malformed

/-- The symbol of a text. -/
def ofJson (text : String) : Except Fault Symbol :=
  document read text

/-- The text of a symbol. -/
def toJson (s : Symbol) : String :=
  String.ofList (writeString s.name)

end Ribbon.Symbol
