import Ribbon.Json.Cursor
import Ribbon.Vector

/-!
# Numbers of a document

A number is written with decimal digits, and may have a sign, a fraction and an exponent. Without
fraction and exponent it is an integer where it fits into 64 bits, otherwise a double.

## Main definitions

* `Ribbon.Json.Numeral` — the written form, part by part.
* `Ribbon.Json.readNumeral` — reads one.
* `Ribbon.Json.Numeral.parts` — the digits as a 64-bit count, and the power of ten.
* `Ribbon.Json.Number`, `Ribbon.Json.Numeral.value?` — its value, unless that is too large.

## Design

The double of a number is found with a single product or quotient of doubles: its digits, as a
double, times or by a power of ten, as a double. Both are rounded before they are combined and the
result is rounded again, so it lies close to the number but need not be the nearest double. Digits
beyond 64 bits are dropped.
-/

set_option relaxedAutoImplicit false
set_option autoImplicit false

namespace Ribbon.Json

/-- A number as it is written. -/
structure Numeral where
  negative : Bool
  /-- The digits before the point. -/
  whole : List Char
  /-- The digits behind the point; none if there is no point. -/
  fraction : List Char
  /-- The exponent, if there is one: whether it is negative, and its digits. -/
  exponent : Option (Bool × List Char)

/-- The value of a number. -/
inductive Number where
  | integer (value : Int)
  | real (value : Float)

/-- One or more digits; `ended` is the fault of a text that ends before the first. -/
def readDigits (ended : Fault) (cs : List Char) : Except Fault (Parsed (List Char)) :=
  match cs with
  | [] => .error ended
  | c :: _ =>
    if c.isDigit then .ok (cs.takeWhile Char.isDigit, cs.dropWhile Char.isDigit)
    else .error .malformed

/-- The digits before the point: a leading zero stands alone. -/
def readWhole (ended : Fault) (cs : List Char) : Except Fault (Parsed (List Char)) := do
  let (ds, rest) ← readDigits ended cs
  if ds.head? = some '0' ∧ 1 < ds.length then .error .malformed
  else .ok (ds, rest)

/-- A point and the digits behind it, if there is a point. -/
def readFraction (ended : Fault) : List Char → Except Fault (Parsed (List Char))
  | '.' :: rest => readDigits ended rest
  | cs => .ok ([], cs)

/-- The sign of an exponent. -/
def readExponentSign : List Char → Bool × List Char
  | '+' :: rest => (false, rest)
  | '-' :: rest => (true, rest)
  | cs => (false, cs)

/-- An exponent, if there is one. -/
def readExponent (ended : Fault) : List Char → Except Fault (Parsed (Option (Bool × List Char)))
  | [] => .ok (none, [])
  | c :: rest =>
    if c = 'e' ∨ c = 'E' then do
      let (negative, rest) := readExponentSign rest
      let (ds, rest) ← readDigits ended rest
      .ok (some (negative, ds), rest)
    else .ok (none, c :: rest)

/-- The sign of a number. -/
def readSign : List Char → Bool × List Char
  | '-' :: rest => (true, rest)
  | cs => (false, cs)

/-- Reads a number; `ended` is the fault of a text that ends where a digit has to follow. -/
def readNumeral (ended : Fault) (cs : List Char) : Except Fault (Parsed Numeral) := do
  let (negative, rest) := readSign cs
  let (whole, rest) ← readWhole ended rest
  let (fraction, rest) ← readFraction ended rest
  let (exponent, rest) ← readExponent ended rest
  return (⟨negative, whole, fraction, exponent⟩, rest)

namespace Numeral

/-- All digits read as one natural number. -/
def coefficient (n : Numeral) : Nat :=
  Decimal.ofDigits (n.whole ++ n.fraction)

/-- Appends digits to a count as long as it fits into 64 bits; gives the count and the number of
digits that are left over. -/
def absorb (count : Nat) : List Char → Nat × Nat
  | [] => (count, 0)
  | d :: ds =>
    let next := Decimal.ofDigits [d] + 10 * count
    if next < UInt64.size then absorb next ds else (count, ds.length + 1)

/-- The power of ten that is written behind the digits. -/
def writtenExponent (n : Numeral) : Int :=
  match n.exponent with
  | none => 0
  | some (negative, ds) => if negative then -Decimal.ofDigits ds else Decimal.ofDigits ds

/-- The digits as a 64-bit count, and the power of ten that goes with it: digits in front of the
point that are left over raise it, and digits behind the point that are taken lower it. -/
def parts (n : Numeral) : Nat × Int :=
  let (whole, late) := absorb 0 n.whole
  let (all, rest) := absorb whole n.fraction
  (all, n.writtenExponent + late - (n.fraction.length - rest))

/-- A power of ten as a double. -/
def tenPower (k : Nat) : Float := .ofModel (.ofScientific 1 k)

/-- A double by a power of ten. Beyond the greatest power of ten that is a double it is divided by
that power again and again; three times are enough to make any 64-bit count zero. -/
def shrink (x : Float) (k : Nat) : Float :=
  let rounds := min 3 ((k - 1) / 308)
  Nat.repeat (· / tenPower 308) rounds x / tenPower (k - 308 * ((k - 1) / 308))

/-- A count times a power of ten, in doubles. -/
def scaled (count : Nat) (e : Int) : Float :=
  let x := count.toUInt64.toFloat
  if count = 0 then x
  else if 0 ≤ e then x * tenPower e.toNat
  else shrink x (-e).toNat

/-- The double of a number, with the sign of its text. -/
def toDouble (n : Numeral) : Float :=
  let size := scaled n.parts.1 n.parts.2
  if n.negative then -size else size

/-- Whether the number is written with neither point nor exponent. -/
def isWhole (n : Numeral) : Bool :=
  n.fraction.isEmpty && n.exponent.isNone

/-- The integer of a number without point and exponent, if it has one in 64 bits. Zero with a sign
is not an integer but the negative zero. -/
def toInteger? (n : Numeral) : Option Int :=
  if !n.isWhole then none
  else if n.negative then
    if 0 < n.coefficient ∧ n.coefficient ≤ UInt64.size / 2 then some (-n.coefficient) else none
  else if n.coefficient < UInt64.size then some n.coefficient else none

/-- The value of a number, unless it is beyond the doubles. -/
def value? (n : Numeral) : Option Number :=
  match n.toInteger? with
  | some i => some (.integer i)
  | none => if n.toDouble.isInf then none else some (.real n.toDouble)

end Numeral

/-- Reads a number that is used. -/
def readNumber (cs : List Char) : Except Fault (Parsed Number) := do
  let (n, rest) ← readNumeral .truncated cs
  match n.value? with
  | some value => .ok (value, rest)
  | none => .error .malformed

/-- Skips a number that is not used and may be of any size. -/
def skipNumber (cs : List Char) : Except Fault (List Char) := do
  let (_, rest) ← readNumeral .malformed cs
  return rest

/-- The single-precision number nearest to a number. -/
def Number.toSingle : Number → Float32
  | .integer value => Binary32.ofInt value
  | .real value => Binary32.ofDouble value

end Ribbon.Json
