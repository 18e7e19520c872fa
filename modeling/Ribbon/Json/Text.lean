import Ribbon.Json.Cursor

/-!
# Strings and written values

Strings are read and written character by character, with escapes for what cannot stand for itself. All
other values are written without blanks.

## Main definitions

* `Ribbon.Json.readString` — reads the rest of a string whose opening mark has been read.
* `Ribbon.Json.skipString` — the same for a string that is not used, where units need not pair up.
* `Ribbon.Json.writeString` — the written form of a string.
* `Ribbon.Json.writeSingle`, `Ribbon.Json.writeCount` — numbers.
* `Ribbon.Json.writeList`, `Ribbon.Json.writeObject` — lists and objects of written values.

## Design

Both readers are automata that take one character at a time, so they recurse on the text.
-/

set_option relaxedAutoImplicit false
set_option autoImplicit false

namespace Ribbon.Json

/-! ## Strings of a document

A string stands between quotation marks. A backslash begins an escape: a letter for the commonest
characters, or four hexadecimal digits of a UTF-16 unit, two of which make up a character beyond
the basic plane.
-/

/-- The character that an escape with a letter stands for. -/
def letterEscape? : Char → Option Char
  | '\x22' => some '\x22'
  | '\\' => some '\\'
  | '/' => some '/'
  | 'b' => some '\x08'
  | 'f' => some '\x0c'
  | 'n' => some '\n'
  | 'r' => some '\r'
  | 't' => some '\t'
  | _ => none

/-- The value of a hexadecimal digit. -/
def hexDigit? (c : Char) : Option Nat :=
  if '0' ≤ c ∧ c ≤ '9' then some (c.toNat - '0'.toNat)
  else if 'a' ≤ c ∧ c ≤ 'f' then some (c.toNat - 'a'.toNat + 10)
  else if 'A' ≤ c ∧ c ≤ 'F' then some (c.toNat - 'A'.toNat + 10)
  else none

/-- Whether the text still has the four bytes of a unit, in UTF-8. Where it has not, it ends too
early, whatever they are. -/
def hasUnit (cs : List Char) : Bool :=
  4 ≤ (cs.take 4).foldr (fun c n => c.utf8Size + n) 0

/-- Units that begin a pair. -/
def isHighUnit (unit : Nat) : Bool := 0xD800 ≤ unit && unit ≤ 0xDBFF

/-- Units that end a pair. -/
def isLowUnit (unit : Nat) : Bool := 0xDC00 ≤ unit && unit ≤ 0xDFFF

/-- The character of a pair of units. -/
def pairChar (high low : Nat) : Char :=
  Char.ofNat ((high - 0xD800) * 0x400 + (low - 0xDC00) + 0x10000)

/-- What a string may go on with. -/
inductive StringState where
  /-- Any character, or the closing mark. -/
  | inside
  /-- The letter of an escape. -/
  | escape
  /-- A digit of a unit, of which `count` have been read with the value `value`; `high` is the unit
  before it that awaits its pair. -/
  | unit (high : Option Nat) (count value : Nat)
  /-- The backslash of the unit that completes a pair. -/
  | pairEscape (high : Nat)
  /-- The letter of the unit that completes a pair. -/
  | pairLetter (high : Nat)

/-- What a complete unit means. -/
inductive UnitMeaning where
  | char (c : Char)
  | half (high : Nat)
  | unpaired

/-- The meaning of a unit, with the one before it that awaits its pair. -/
def unitMeaning (high : Option Nat) (unit : Nat) : UnitMeaning :=
  match high with
  | some h => if isLowUnit unit then .char (pairChar h unit) else .unpaired
  | none =>
    if isLowUnit unit then .unpaired
    else if isHighUnit unit then .half unit
    else .char (Char.ofNat unit)

/-- Reads on in a given state; `read` holds the characters so far, the last one first. -/
def readStringFrom : StringState → List Char → List Char → Except Fault (Parsed String)
  | _, _, [] => .error .truncated
  | .inside, read, c :: rest =>
    if c = '\x22' then .ok (String.ofList read.reverse, rest)
    else if c = '\\' then readStringFrom .escape read rest
    else if c.toNat < 0x20 then .error .malformed
    else readStringFrom .inside (c :: read) rest
  | .escape, read, c :: rest =>
    if c = 'u' then
      if hasUnit rest then readStringFrom (.unit none 0 0) read rest else .error .truncated
    else
      match letterEscape? c with
      | some e => readStringFrom .inside (e :: read) rest
      | none => .error .malformed
  | .unit high count value, read, c :: rest =>
    match hexDigit? c with
    | none => .error .malformed
    | some digit =>
      if count < 3 then readStringFrom (.unit high (count + 1) (value * 16 + digit)) read rest
      else
        match unitMeaning high (value * 16 + digit) with
        | .char e => readStringFrom .inside (e :: read) rest
        | .half h => readStringFrom (.pairEscape h) read rest
        | .unpaired => .error .malformed
  | .pairEscape high, read, c :: rest =>
    if c = '\\' then readStringFrom (.pairLetter high) read rest else .error .malformed
  | .pairLetter high, read, c :: rest =>
    if c = 'u' then
      if hasUnit rest then readStringFrom (.unit (some high) 0 0) read rest else .error .truncated
    else .error .malformed

/-- Reads a string whose opening mark has been read. -/
def readString (cs : List Char) : Except Fault (Parsed String) :=
  readStringFrom .inside [] cs

/-- What a string that is not used may go on with. -/
inductive SkipState where
  /-- Any character, or the closing mark. -/
  | inside
  /-- The letter of an escape. -/
  | escape
  /-- So many digits of a unit. -/
  | digits (left : Nat)

/-- Skips on in a given state. -/
def skipStringFrom : SkipState → List Char → Except Fault (List Char)
  | _, [] => .error .truncated
  | .inside, c :: rest =>
    if c = '\x22' then .ok rest
    else if c = '\\' then skipStringFrom .escape rest
    else if c.toNat < 0x20 then .error .malformed
    else skipStringFrom .inside rest
  | .escape, c :: rest =>
    if c = 'u' then
      if hasUnit rest then skipStringFrom (.digits 4) rest else .error .truncated
    else if (letterEscape? c).isSome then skipStringFrom .inside rest
    else .error .malformed
  | .digits left, c :: rest =>
    if (hexDigit? c).isNone then .error .malformed
    else if left ≤ 1 then skipStringFrom .inside rest
    else skipStringFrom (.digits (left - 1)) rest

/-- Skips a string whose opening mark has been read. -/
def skipString (cs : List Char) : Except Fault (List Char) :=
  skipStringFrom .inside cs

/-- The written form of a character inside a string: quotation marks, backslashes and controls are
escaped, and nothing else. -/
def writeChar (c : Char) : List Char :=
  if c = '\x22' ∨ c = '\\' then ['\\', c]
  else if c = '\x08' then ['\\', 'b']
  else if c = '\x0c' then ['\\', 'f']
  else if c = '\n' then ['\\', 'n']
  else if c = '\r' then ['\\', 'r']
  else if c = '\t' then ['\\', 't']
  else if c.toNat < 0x20 then
    ['\\', 'u', '0', '0', Nat.digitChar (c.toNat / 16), Nat.digitChar (c.toNat % 16)]
  else [c]

/-- The written form of a string. -/
def writeString (s : String) : List Char :=
  '\x22' :: s.toList.flatMap writeChar ++ ['\x22']

/-! ## Writing documents

Documents are written without blanks, and the fields of a record in a fixed order.
-/

/-- The written form of a single-precision number: what has no digits is `null`. -/
def writeSingle (x : Float32) : List Char :=
  (Decimal.Style.document32.text x.toModel.unpack).toList

/-- The written form of a count. -/
def writeCount (n : Nat) : List Char :=
  Decimal.digits n

/-- Written values with commas between them. -/
def separated (items : List (List Char)) : List Char :=
  List.intercalate [','] items

/-- The written form of a list of written values. -/
def writeList (items : List (List Char)) : List Char :=
  '[' :: separated items ++ [']']

/-- The written form of a member with a written value. -/
def writeMember (name : String) (value : List Char) : List Char :=
  writeString name ++ ':' :: value

/-- The written form of an object with written values. -/
def writeObject (members : List (String × List Char)) : List Char :=
  '\x7b' :: separated (members.map fun m => writeMember m.1 m.2) ++ ['\x7d']

/-- The written form of a list of single-precision numbers. -/
def writeSingles (xs : List Float32) : List Char :=
  writeList (xs.map writeSingle)

end Ribbon.Json
