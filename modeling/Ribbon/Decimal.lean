/-!
# Decimal numbers

Natural numbers are rows of decimal digits. A binary number is shown by the shortest decimal that reads
back as the same number, in the layout of a message or of a document.

## Main definitions

* `Ribbon.Decimal.digits`, `Ribbon.Decimal.ofDigits` — writing and reading.
* `Ribbon.Decimal.natText`, `Ribbon.Decimal.signedDigits` — texts of counts and integers.
* `Ribbon.Decimal` — a whole coefficient times a power of ten.
* `Ribbon.Decimal.Interval` — the numbers that round to a given one.
* `Ribbon.Decimal.Tie` — which of two equally near points is taken.
* `Ribbon.Decimal.shortest` — the shortest decimal of a number.
* `Ribbon.Decimal.Style` — the decisions of a layout.
* `Ribbon.Decimal.Style.plain` — the layout of messages.
* `Ribbon.Decimal.Style.document32`, `Ribbon.Decimal.Style.document64` — the layout of documents.
* `Ribbon.Decimal.Style.text` — the text of a number.

## Main results

* `Ribbon.Decimal.ofDigits_digits` — what is written is read back.
* `Ribbon.Decimal.isDigit_of_mem_digits` — only digits are written.
* `Ribbon.Decimal.length_digits_le_iff` — how many of them.
* `Ribbon.Decimal.head?_digits_ne_zero` — the first one is not zero.

## Design

All comparisons are between natural numbers. For a grid `10 ^ k` the ends and the middle of the
interval, which are multiples of a power of two, and the grid are multiplied by the least powers of
two and ten that make them whole.
-/

set_option relaxedAutoImplicit false
set_option autoImplicit false

namespace Ribbon.Decimal

/-! ## Decimal digits

Natural numbers as rows of decimal digits.
-/

/-- The decimal digits of a natural number, without leading zeros. -/
def digits (n : Nat) : List Char := Nat.toDigits 10 n

/-- The value of a row of decimal digits. -/
def ofDigits (ds : List Char) : Nat := Nat.ofDigitChars 10 ds 0

/-- What is written is read back. -/
@[simp]
theorem ofDigits_digits (n : Nat) : ofDigits (digits n) = n :=
  Nat.ofDigitChars_toDigits (by decide) (by decide)

/-- Only digits are written. -/
theorem isDigit_of_mem_digits {n : Nat} {c : Char} (h : c ∈ digits n) : c.isDigit = true :=
  Nat.isDigit_of_mem_toDigits (by decide) (by decide) h

/-- Every number has a digit. -/
theorem digits_ne_nil (n : Nat) : digits n ≠ [] :=
  List.ne_nil_of_length_pos Nat.length_toDigits_pos

/-- The number of digits. -/
theorem length_digits_le_iff {n k : Nat} (hk : 0 < k) :
    (digits n).length ≤ k ↔ n < Nat.pow 10 k :=
  Nat.length_toDigits_le_iff (by decide) hk

/-- A row that goes on behind a number begins with the digits of the number. -/
theorem head?_digits_append (n : Nat) (rest : List Char) :
    (digits n ++ rest).head? = (digits n).head? := by
  rw [List.head?_append, List.head?_eq_some_head (digits_ne_nil n), Option.some_or]

/-- A positive number does not begin with a zero. -/
theorem head?_digits_ne_zero {n : Nat} (h : 0 < n) : (digits n).head? ≠ some '0' := by
  induction n using Nat.base_induction 10 (by decide) with
  | single m hm =>
    rw [digits, Nat.toDigits_of_lt_base hm]
    simp only [List.head?_cons, ne_eq, Option.some.injEq, Nat.digitChar_eq_zero]
    omega
  | digit m k hk hm ih =>
    rw [digits, ← Nat.toDigits_append_toDigits (by decide) hm hk]
    exact head?_digits_append m _ ▸ ih hm

/-- The text of a count. -/
def natText (n : Nat) : String := String.ofList (digits n)

/-- The digits of an integer, after a minus sign if it is negative. -/
def signedDigits (n : Int) : List Char :=
  if n < 0 then '-' :: digits n.natAbs else digits n.natAbs

end Ribbon.Decimal

namespace Ribbon

/-! ## Shortest decimals

The decimal with the fewest digits among those that a binary number is nearest to, and of these
the one nearest to the number itself. It is found on ever finer decimal grids: the first grid with
a point in the rounding interval of the number wins.
-/

/-- The number `coefficient * 10 ^ exponent`. -/
structure Decimal where
  coefficient : Nat
  exponent : Int
  deriving DecidableEq

namespace Decimal

open Float.Model (Format)

/-- Which of two equally near points of a grid is taken. -/
inductive Tie where
  /-- The one further from zero. -/
  | away
  /-- The one whose last digit is even. -/
  | toEven
  deriving DecidableEq

/-- The interval of the numbers that round to `middle * 2 ^ exponent`. -/
structure Interval where
  low : Nat
  middle : Nat
  high : Nat
  exponent : Int
  /-- Whether the ends belong to it. -/
  closed : Bool

/-- The interval that rounds to `m * 2 ^ e`. Its ends lie half way to the neighbours, of which the
lower one is nearer at a power of two. A half goes to the even mantissa. -/
def Interval.around (spec : Format) (m : Nat) (e : Int) : Interval where
  low :=
    if m = Nat.pow 2 (spec.mantissaBits - 1) ∧ spec.minExponent < e then 4 * m - 1
    else 4 * m - 2
  middle := 4 * m
  high := 4 * m + 2
  exponent := e - 2
  closed := m % 2 = 0

/-- An interval measured in a unit that divides both its own and that of the grid `10 ^ k`. -/
structure Scaled where
  low : Nat
  middle : Nat
  high : Nat
  /-- The distance between two points of the grid. -/
  unit : Nat
  closed : Bool

/-- The interval beside the grid `10 ^ k`. -/
def Interval.scaled (i : Interval) (k : Int) : Scaled :=
  let factor := Nat.pow 10 (-k).toNat * Nat.pow 2 i.exponent.toNat
  { low := i.low * factor
    middle := i.middle * factor
    high := i.high * factor
    unit := Nat.pow 10 k.toNat * Nat.pow 2 (-i.exponent).toNat
    closed := i.closed }

/-- Whether the point number `n` of the grid lies in the interval. -/
def Scaled.contains (s : Scaled) (n : Nat) : Bool :=
  if s.closed then s.low ≤ n * s.unit && n * s.unit ≤ s.high
  else s.low < n * s.unit && n * s.unit < s.high

/-- The number of the grid point at or below the middle. -/
def Scaled.below (s : Scaled) : Nat := s.middle / s.unit

/-- The nearer to the middle of the points `below` and `below + 1`. -/
def Scaled.nearer (s : Scaled) (tie : Tie) : Nat :=
  let down := s.middle - s.below * s.unit
  let up := (s.below + 1) * s.unit - s.middle
  if down < up then s.below
  else if up < down then s.below + 1
  else match tie with
    | .away => s.below + 1
    | .toEven => if s.below % 2 = 0 then s.below else s.below + 1

/-- The grid point in the interval that is nearest to the middle, if any. -/
def Scaled.nearest? (s : Scaled) (tie : Tie) : Option Nat :=
  match s.contains s.below, s.contains (s.below + 1) with
  | true, true => some (s.nearer tie)
  | true, false => some s.below
  | false, true => some (s.below + 1)
  | false, false => none

/-- The first hit on the grids `10 ^ k`, `10 ^ (k - 1)` and so on; `fuel` grids are tried. -/
def Interval.search (i : Interval) (tie : Tie) : Nat → Int → Decimal
  | 0, k => ⟨(i.scaled k).nearer tie, k⟩
  | fuel + 1, k =>
    match (i.scaled k).nearest? tie with
    | some n => ⟨n, k⟩
    | none => i.search tie fuel (k - 1)

/-- An exponent whose power of ten is above `m * 2 ^ e`. -/
def gridAbove (m : Nat) (e : Int) : Int :=
  (m.log2 + 1 + e) * 30103 / 100000 + 1

/-- The shortest decimal that rounds to `m * 2 ^ e`. A format with `p` mantissa bits never needs
more than `p` digits. -/
def shortest (spec : Format) (tie : Tie) (m : Nat) (e : Int) : Decimal :=
  (Interval.around spec m e).search tie spec.mantissaBits (gridAbove m e)

end Decimal

end Ribbon

namespace Ribbon.Decimal

open Float.Model (Format UnpackedFloat)

/-! ## The text of numbers

How the shortest decimal of a number is laid out: positional or with an exponent, and with or
without a fraction part when it is whole.
-/

/-- The decisions of a layout. -/
structure Style where
  /-- The binary format of the numbers. -/
  spec : Format
  /-- Which of two equally near decimals is shown. -/
  tie : Tie
  /-- The least and the greatest exponent of the leading digit that are shown positionally; all of
  them if there is none. -/
  window : Option (Int × Int)
  /-- What follows the digits of a whole number. -/
  wholeEnd : List Char
  /-- The text of what is not a number. -/
  notANumber : String
  /-- The text of the positive infinity, and of the negative one. -/
  infinities : String × String

namespace Style

/-- Messages show every number positionally, whole ones without a point, and a tie goes away from
zero. -/
def plain : Style where
  spec := .binary32
  tie := .away
  window := none
  wholeEnd := []
  notANumber := "NaN"
  infinities := ("inf", "-inf")

/-- Documents show single-precision numbers positionally from the sixth decimal place to thirteen
digits, whole ones with a zero behind the point, and a tie goes to the even digit. -/
def document32 : Style where
  spec := .binary32
  tie := .toEven
  window := some (-6, 12)
  wholeEnd := ['.', '0']
  notANumber := "null"
  infinities := ("null", "null")

/-- Documents show double-precision numbers positionally from the fifth decimal place to sixteen
digits. -/
def document64 : Style :=
  { document32 with spec := .binary64, window := some (-5, 15) }

/-- The exponent of the leading digit of a decimal. -/
def leadingExponent (d : Decimal) : Int :=
  d.exponent + (digits d.coefficient).length - 1

/-- Positional notation: the point stands where the exponent puts it, with zeros as needed. -/
def positional (style : Style) (d : Decimal) : List Char :=
  let ds := digits d.coefficient
  if 0 ≤ d.exponent then
    ds ++ List.replicate d.exponent.toNat '0' ++ style.wholeEnd
  else
    let places := (-d.exponent).toNat
    let padded := List.replicate (places + 1 - ds.length) '0' ++ ds
    padded.take (padded.length - places) ++ '.' :: padded.drop (padded.length - places)

/-- Notation with an exponent, whose sign is always shown: one digit stands before the point, and
the point only where digits follow. -/
def scientific (d : Decimal) : List Char :=
  let e := leadingExponent d
  let exponent := 'e' :: (if e < 0 then '-' else '+') :: digits e.natAbs
  match digits d.coefficient with
  | [] => exponent
  | [c] => c :: exponent
  | c :: rest => c :: '.' :: rest ++ exponent

/-- Whether a decimal is shown positionally. -/
def isPositional (style : Style) (d : Decimal) : Bool :=
  match style.window with
  | none => true
  | some (least, greatest) => least ≤ leadingExponent d && leadingExponent d ≤ greatest

/-- The text of a positive decimal. -/
def layout (style : Style) (d : Decimal) : List Char :=
  if style.isPositional d then style.positional d else scientific d

/-- The sign of a number as it is shown: only a negative one is. -/
def signText : UnpackedFloat.Sign → List Char
  | .negative => ['-']
  | .positive => []

/-- The text of a number. -/
def text (style : Style) : UnpackedFloat → String
  | .notANumber => style.notANumber
  | .infinity .positive => style.infinities.1
  | .infinity .negative => style.infinities.2
  | .zero sign => String.ofList (signText sign ++ '0' :: style.wholeEnd)
  | .finite sign m e _ =>
    String.ofList (signText sign ++ style.layout (shortest style.spec style.tie m e))

end Style

end Ribbon.Decimal
