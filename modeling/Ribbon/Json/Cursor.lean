import Ribbon.Decimal
import Ribbon.Text

/-!
# Reading from the left

A document is read from left to right, and the first thing wrong with it is reported. So a reader takes
characters from the front of the text and leaves the rest, or reports a fault.

## Main definitions

* `Ribbon.Json.Fault` — the three kinds of fault.
* `Ribbon.Json.Mismatch` — what is wrong with content of the right grammar.
* `Ribbon.Json.Mismatch.message` — its wording.
* `Ribbon.Json.Parsed` — what a reader gives back.
* `Ribbon.Json.skipBlank` — drops the blanks between tokens.
* `Ribbon.Json.token` — the first character of the next token.
* `Ribbon.Json.readWord` — reads given characters.
* `Ribbon.Json.readColon` — reads the colon behind the name of a member.
-/

set_option relaxedAutoImplicit false
set_option autoImplicit false

namespace Ribbon.Json

/-! ## What is wrong with a document

A document is read from left to right and the first thing wrong with it is reported: the text ends
too early, it breaks the grammar, or its content is not what is wanted.
-/

section

open Float.Model (UnpackedFloat)

/-- A value that was found where another was wanted. -/
inductive Found where
  | null
  | boolean (value : Bool)
  | integer (value : Int)
  | real (value : Float)
  | string (value : String)
  | sequence
  | map

/-- What is wanted at a place of a document. -/
inductive Wanted where
  | string
  /-- A count below `2 ^ 32`. -/
  | count32
  /-- A count below `2 ^ 64`. -/
  | count64
  /-- A single-precision number. -/
  | number
  /-- A list of any length. -/
  | list
  /-- A list of so many single-precision numbers. -/
  | tuple (size : Nat)
  /-- An object with named fields. -/
  | record (name : String)
  /-- A record written as a list of so many fields. -/
  | recordList (name : String) (size : Nat)
  /-- The name of an alternative. -/
  | variant
  /-- The content of an alternative that has none. -/
  | nothing

/-- What is wrong with content of the right grammar. -/
inductive Mismatch where
  | invalidType (found : Found) (wanted : Wanted)
  | invalidValue (found : Found) (wanted : Wanted)
  | invalidLength (size : Nat) (wanted : Wanted)
  | missingField (name : String)
  | duplicateField (name : String)
  | unknownVariant (name : String) (variants : List String)
  /-- The content is refused for a reason of its own. -/
  | refused (reason : String)

/-- The first thing wrong with a document. -/
inductive Fault where
  /-- The text ends too early. -/
  | truncated
  /-- The text breaks the grammar. -/
  | malformed
  /-- The content is not what is wanted. -/
  | content (cause : Mismatch)

/-- A name between the marks that messages put around names. -/
def marked (name : String) : String :=
  "\x60" ++ name ++ "\x60"

/-- How a message names what was found. -/
def Found.describe : Found → String
  | .null => "null"
  | .boolean value => "boolean " ++ marked (if value then "true" else "false")
  | .integer value => "integer " ++ marked (String.ofList (Decimal.signedDigits value))
  | .real value => "floating point " ++ marked (Decimal.Style.document64.text value.toModel.unpack)
  | .string value => "string " ++ Text.quoteString value
  | .sequence => "sequence"
  | .map => "map"

/-- How a message names what is wanted. -/
def Wanted.describe : Wanted → String
  | .string => "a string"
  | .count32 => "u32"
  | .count64 => "usize"
  | .number => "f32"
  | .list => "a sequence"
  | .tuple size => "a sequence of " ++ Decimal.natText size ++ " f32 values"
  | .record name => "struct " ++ name
  | .recordList name size => "struct " ++ name ++ " with " ++ Decimal.natText size ++ " elements"
  | .variant => "variant identifier"
  | .nothing => "unit"

/-- The wording of a mismatch. -/
def Mismatch.message : Mismatch → String
  | .invalidType found wanted =>
    "invalid type: " ++ found.describe ++ ", expected " ++ wanted.describe
  | .invalidValue found wanted =>
    "invalid value: " ++ found.describe ++ ", expected " ++ wanted.describe
  | .invalidLength size wanted =>
    "invalid length " ++ Decimal.natText size ++ ", expected " ++ wanted.describe
  | .missingField name => "missing field " ++ marked name
  | .duplicateField name => "duplicate field " ++ marked name
  | .unknownVariant name variants =>
    "unknown variant " ++ marked name ++ ", expected one of "
      ++ String.intercalate ", " (variants.map marked)
  | .refused reason => reason

end

/-! ## Reading from the left

A reader takes characters from the front of the text and leaves the rest, or reports the first
fault.
-/

/-- A value that has been read, and the rest of the text. -/
abbrev Parsed (α : Type) := α × List Char

/-- Between tokens stand spaces, tabs and line ends. -/
def isBlank (c : Char) : Bool :=
  c = ' ' || c = '\t' || c = '\n' || c = '\r'

/-- The text from its first token on. -/
def skipBlank (cs : List Char) : List Char :=
  cs.dropWhile isBlank

/-- The first character of the next token, and the rest. -/
def token (cs : List Char) : Except Fault (Parsed Char) :=
  match skipBlank cs with
  | [] => .error .truncated
  | c :: rest => .ok (c, rest)

/-- The text behind the given characters. -/
def readWord : List Char → List Char → Except Fault (List Char)
  | [], rest => .ok rest
  | _ :: _, [] => .error .truncated
  | w :: ws, c :: rest => if c = w then readWord ws rest else .error .malformed

/-- The text behind the next token, which has to be a colon. -/
def readColon (cs : List Char) : Except Fault (List Char) :=
  readWord [':'] (skipBlank cs)

/-- A reader that succeeds hands its result on. -/
@[simp]
theorem ok_bind {ε α β : Type} (x : α) (next : α → Except ε β) : (.ok x >>= next) = next x :=
  rfl

/-- A token that no blanks stand before is found at once. -/
theorem token_cons {c : Char} (h : isBlank c = false) (rest : List Char) :
    token (c :: rest) = .ok (c, rest) := by
  rw [token, skipBlank, List.dropWhile_cons_of_neg (by simp [h])]

/-- A word is read back. -/
theorem readWord_append (word rest : List Char) : readWord word (word ++ rest) = .ok rest := by
  induction word with
  | nil => rfl
  | cons w ws ih => simp [readWord, ih]

end Ribbon.Json
