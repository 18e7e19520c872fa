import Ribbon.Json.Number
import Ribbon.Json.Text

/-!
# Reading values

A value is read with its type, or skipped if it is not used.

## Main definitions

* `Ribbon.Json.Bracket` — the two kinds of bracket.
* `Ribbon.Json.skipValue` — skips a value.
* `Ribbon.Json.mismatch` — reports a value of the wrong type.
* `Ribbon.Json.stringValue`, `Ribbon.Json.singleValue`, `Ribbon.Json.countBelow` — scalars.
* `Ribbon.Json.tupleValue`, `Ribbon.Json.listValue` — lists.
* `Ribbon.Json.members` — the members of an object.
* `Ribbon.Json.document` — a whole text.

## Design

The open brackets are kept in a list, so that depth costs no recursion. A round of `skipFrom`
takes at least one character unless it ends or comes right after an opening bracket, so two rounds
for each character and one more are enough.
-/

set_option relaxedAutoImplicit false
set_option autoImplicit false

namespace Ribbon.Json

/-! ## Values that are not used

The value of an unknown member is skipped. Its grammar is checked, but its strings may hold
unpaired units, its numbers may be of any size, and its brackets may be nested to any depth.
-/

/-- An open bracket: of a list or of an object. -/
inductive Bracket where
  | list
  | object
  deriving DecidableEq

/-- The character that closes a bracket. -/
def Bracket.close : Bracket → Char
  | .list => ']'
  | .object => '\x7d'

/-- Skips a value without brackets that begins with `c`. -/
def skipScalar (c : Char) (rest : List Char) : Except Fault (List Char) :=
  if c = 'n' then readWord ['u', 'l', 'l'] rest
  else if c = 't' then readWord ['r', 'u', 'e'] rest
  else if c = 'f' then readWord ['a', 'l', 's', 'e'] rest
  else if c = '\x22' then skipString rest
  else if c = '-' ∨ c.isDigit then skipNumber (c :: rest)
  else .error .malformed

/-- Skips the name of a member and its colon. -/
def skipName (cs : List Char) : Except Fault (List Char) := do
  let (c, rest) ← token cs
  if c = '\x22' then readColon (← skipString rest) else .error .malformed

/-- Skips what has to stand before the next value in a bracket: in an object, a name. -/
def Bracket.skipLead : Bracket → List Char → Except Fault (List Char)
  | .list, cs => .ok cs
  | .object, cs => skipName cs

/-- What skipping goes on with. -/
inductive SkipPhase where
  /-- A value. -/
  | value
  /-- The first value in a bracket, or its end. -/
  | first
  /-- What follows a value. -/
  | next

/-- Skips on with the given brackets open, the innermost first. -/
def skipFrom : Nat → SkipPhase → List Bracket → List Char → Except Fault (List Char)
  | _, .next, [], cs => .ok cs
  | 0, _, _, _ => .error .truncated
  | fuel + 1, .value, brackets, cs => do
    let (c, rest) ← token cs
    if c = '[' then skipFrom fuel .first (.list :: brackets) rest
    else if c = '\x7b' then skipFrom fuel .first (.object :: brackets) rest
    else skipFrom fuel .next brackets (← skipScalar c rest)
  | fuel + 1, .first, b :: outer, cs => do
    let (c, rest) ← token cs
    if c = b.close then skipFrom fuel .next outer rest
    else skipFrom fuel .value (b :: outer) (← b.skipLead (c :: rest))
  | fuel + 1, .next, b :: outer, cs => do
    let (c, rest) ← token cs
    if c = b.close then skipFrom fuel .next outer rest
    else if c = ',' then skipFrom fuel .value (b :: outer) (← b.skipLead rest)
    else .error .malformed
  | _ + 1, .first, [], cs => .ok cs

/-- Skips a value. -/
def skipValue (cs : List Char) : Except Fault (List Char) :=
  skipFrom (2 * cs.length + 1) .value [] cs

/-! ## Reading typed values

Readers of strings, numbers, lists and objects. Each looks at the first character of the value: if
it begins another type of value, that value is read as far as its description needs and reported
as a mismatch.
-/

/-- A number as it is named in a message. -/
def Number.found : Number → Found
  | .integer value => .integer value
  | .real value => .real value

/-- What value begins with the character `c`. Words, strings and numbers are read to their end, so
that their own faults come first. -/
def foundAt (c : Char) (rest : List Char) : Except Fault Found :=
  if c = 'n' then do
    let _ ← readWord ['u', 'l', 'l'] rest
    return .null
  else if c = 't' then do
    let _ ← readWord ['r', 'u', 'e'] rest
    return .boolean true
  else if c = 'f' then do
    let _ ← readWord ['a', 'l', 's', 'e'] rest
    return .boolean false
  else if c = '\x22' then do
    let (s, _) ← readString rest
    return .string s
  else if c = '-' ∨ c.isDigit then do
    let (n, _) ← readNumber (c :: rest)
    return n.found
  else if c = '[' then .ok .sequence
  else if c = '\x7b' then .ok .map
  else .error .malformed

/-- Reports the value that begins with `c` where another type is wanted. -/
def mismatch {α : Type} (wanted : Wanted) (c : Char) (rest : List Char) : Except Fault α := do
  let found ← foundAt c rest
  .error (.content (.invalidType found wanted))

/-! ### Scalars -/

/-- A string. -/
def stringValue (cs : List Char) : Except Fault (Parsed String) := do
  let (c, rest) ← token cs
  if c = '\x22' then readString rest else mismatch .string c rest

/-- A number of any kind, where `wanted` is wanted. -/
def numberValue (wanted : Wanted) (cs : List Char) : Except Fault (Parsed Number) := do
  let (c, rest) ← token cs
  if c = '-' ∨ c.isDigit then readNumber (c :: rest) else mismatch wanted c rest

/-- A single-precision number; any number is rounded to one. -/
def singleValue (cs : List Char) : Except Fault (Parsed Float32) := do
  let (n, rest) ← numberValue .number cs
  return (n.toSingle, rest)

/-- An integer that is not negative and below `bound`. -/
def countBelow (wanted : Wanted) (bound : Nat) (cs : List Char) : Except Fault (Parsed Nat) := do
  let (n, rest) ← numberValue wanted cs
  match n with
  | .integer value =>
    if 0 ≤ value ∧ value < bound then return (value.toNat, rest)
    else .error (.content (.invalidValue n.found wanted))
  | .real _ => .error (.content (.invalidType n.found wanted))

/-! ### Lists -/

/-- The text of the next item of a list, unless the list ends here. Before every item but the first
stands a comma. -/
def nextItem? (first : Bool) (cs : List Char) : Except Fault (Option (List Char)) := do
  let (c, rest) ← token cs
  if c = ']' then return none
  else if first then return some (c :: rest)
  else if c = ',' then
    let (d, rest) ← token rest
    if d = ']' then .error .malformed else return some (d :: rest)
  else .error .malformed

/-- The text behind the closing bracket of a list, which has to follow. -/
def endList (cs : List Char) : Except Fault (List Char) :=
  readWord [']'] (skipBlank cs)

/-- The rest of a tuple of single-precision numbers: `left` are still to be read. -/
def tupleItems (size : Nat) : Nat → List Char → Except Fault (Parsed (List Float32))
  | 0, cs => .ok ([], cs)
  | left + 1, cs => do
    match ← nextItem? (left + 1 == size) cs with
    | none => .error (.content (.invalidLength (size - (left + 1)) (.tuple size)))
    | some item =>
      let (x, rest) ← singleValue item
      let (xs, rest) ← tupleItems size left rest
      return (x :: xs, rest)

/-- A list of `size` single-precision numbers. -/
def tupleValue (size : Nat) (cs : List Char) : Except Fault (Parsed (List Float32)) := do
  let (c, rest) ← token cs
  if c = '[' then
    let (xs, rest) ← tupleItems size size rest
    return (xs, ← endList rest)
  else mismatch (.tuple size) c rest

/-- The rest of a list of any length; `read` holds the items so far, the last one first. Every item
takes at least one character, so the length of the text is enough fuel. -/
def listItems {α : Type} (item : List Char → Except Fault (Parsed α)) :
    Nat → List α → List Char → Except Fault (Parsed (List α))
  | 0, _, _ => .error .truncated
  | fuel + 1, read, cs => do
    match ← nextItem? read.isEmpty cs with
    | none => return (read.reverse, cs)
    | some text =>
      let (x, rest) ← item text
      listItems item fuel (x :: read) rest

/-- A list of any length. -/
def listValue {α : Type} (item : List Char → Except Fault (Parsed α)) (cs : List Char) :
    Except Fault (Parsed (List α)) := do
  let (c, rest) ← token cs
  if c = '[' then
    let (xs, rest) ← listItems item (rest.length + 1) [] rest
    return (xs, ← endList rest)
  else mismatch .list c rest

/-! ### Objects -/

/-- The name of the next member and the text behind it, unless the object ends here. -/
def nextName? (first : Bool) (cs : List Char) : Except Fault (Option (Parsed String)) := do
  let (c, rest) ← token cs
  if c = '\x7d' then return none
  else if first then name c rest
  else if c = ',' then
    let (d, rest) ← token rest
    name d rest
  else .error .malformed
where
  /-- The name whose opening mark has to be `c`. -/
  name (c : Char) (rest : List Char) : Except Fault (Option (Parsed String)) := do
    if c = '\x22' then return some (← readString rest) else .error .malformed

/-- The text behind the closing bracket of an object, which has to follow. -/
def endObject (cs : List Char) : Except Fault (List Char) :=
  readWord ['\x7d'] (skipBlank cs)

/-- Reads members one after the other into a state. The reader `member` is given a name and the text
behind it, which begins with the colon. -/
def membersFrom {σ : Type} (member : String → σ → List Char → Except Fault (Parsed σ)) :
    Nat → Bool → σ → List Char → Except Fault (Parsed σ)
  | 0, _, _, _ => .error .truncated
  | fuel + 1, first, state, cs => do
    match ← nextName? first cs with
    | none => return (state, ← endObject cs)
    | some (name, rest) =>
      let (state, rest) ← member name state rest
      membersFrom member fuel false state rest

/-- The members of an object whose opening bracket has been read, up to its closing bracket. -/
def members {σ : Type} (member : String → σ → List Char → Except Fault (Parsed σ)) (start : σ)
    (cs : List Char) : Except Fault (Parsed σ) :=
  membersFrom member (cs.length + 1) true start cs

/-- A member that may be given once: its value, unless it has been given before. -/
def once {α : Type} (name : String) (before : Option α)
    (value : List Char → Except Fault (Parsed α)) (cs : List Char) : Except Fault (Parsed α) :=
  if before.isSome then .error (.content (.duplicateField name))
  else do value (← readColon cs)

/-- A member with an unknown name: its value is skipped. -/
def unknownMember (cs : List Char) : Except Fault (List Char) := do
  skipValue (← readColon cs)

/-! ### Documents -/

/-- The value of a text that holds nothing else but blanks. -/
def document {α : Type} (value : List Char → Except Fault (Parsed α)) (text : String) :
    Except Fault α := do
  let (x, rest) ← value text.toList
  if (skipBlank rest).isEmpty then return x else .error .malformed

end Ribbon.Json
