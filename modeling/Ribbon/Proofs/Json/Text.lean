import Mathlib.Data.List.Basic
import Ribbon.Json.Text

/-!
# Strings are read, however they are written

A string may be written in many ways: a character stands for itself, or is given by an escape with a
letter, by its unit, or by a pair of units. However it is written, it takes the automaton a few steps
to read it, and the automaton is inside the string again afterwards. A string that is not used is
skipped piece by piece, where units need not pair up.

## Main definitions

* `Ribbon.Json.UnitText` — the hexadecimal digits of a unit.
* `Ribbon.Json.CharText`, `Ribbon.Json.CharsText` — the ways to write characters.
* `Ribbon.Json.PieceText`, `Ribbon.Json.PiecesText` — what may stand in a string that is not used.
* `Ribbon.Json.StringText` — the ways to write a string.

## Main results

* `Ribbon.Json.readStringFrom_charText` — a character is read.
* `Ribbon.Json.readString_charsText` — a string is read.
* `Ribbon.Json.skipString_piecesText` — a string is skipped.
* `Ribbon.Json.stringText_writeString` — strings are written in one of these ways.
-/

set_option relaxedAutoImplicit false
set_option autoImplicit false

namespace Ribbon.Json

/-! ## How strings are written -/

/-- Four hexadecimal digits, and the unit that they stand for. -/
inductive UnitText : ℕ → List Char → Prop
  | digits {a b c d : Char} {i j k l : ℕ} (ha : hexDigit? a = some i) (hb : hexDigit? b = some j)
      (hc : hexDigit? c = some k) (hd : hexDigit? d = some l) :
      UnitText (((i * 16 + j) * 16 + k) * 16 + l) [a, b, c, d]

/-- The ways to write a character inside a string. A character beyond the basic plane that is not
written as itself takes two units. -/
inductive CharText (c : Char) : List Char → Prop
  | itself (hmark : c ≠ '\x22') (hslash : c ≠ '\\') (hcontrol : 0x20 ≤ c.toNat) : CharText c [c]
  | letter {l : Char} (hletter : letterEscape? l = some c) : CharText c ['\\', l]
  | unit {ds : List Char} (hunit : UnitText c.toNat ds) : CharText c ('\\' :: 'u' :: ds)
  | pair {high low : ℕ} {ds es : List Char} (hhigh : isHighUnit high = true)
      (hlow : isLowUnit low = true)
      (hc : c.toNat = (high - 0xD800) * 0x400 + (low - 0xDC00) + 0x10000)
      (hds : UnitText high ds) (hes : UnitText low es) :
      CharText c ('\\' :: 'u' :: (ds ++ '\\' :: 'u' :: es))

/-- The ways to write characters in a row. -/
inductive CharsText : List Char → List Char → Prop
  | nil : CharsText [] []
  | cons {c : Char} {cs text texts : List Char} (head : CharText c text)
      (tail : CharsText cs texts) : CharsText (c :: cs) (text ++ texts)

/-- The ways to write a string. -/
inductive StringText (s : String) : List Char → Prop
  | quoted {body : List Char} (hbody : CharsText s.toList body) :
      StringText s ('\x22' :: (body ++ ['\x22']))

/-- What may stand in a string: a character for itself, an escape with a letter, or any unit. -/
inductive PieceText : List Char → Prop
  | itself {c : Char} (hmark : c ≠ '\x22') (hslash : c ≠ '\\') (hcontrol : 0x20 ≤ c.toNat) :
      PieceText [c]
  | letter {l : Char} (hletter : (letterEscape? l).isSome = true) : PieceText ['\\', l]
  | unit {n : ℕ} {ds : List Char} (hunit : UnitText n ds) : PieceText ('\\' :: 'u' :: ds)

/-- What may stand between the marks of a string. -/
inductive PiecesText : List Char → Prop
  | nil : PiecesText []
  | cons {text texts : List Char} (head : PieceText text) (tail : PiecesText texts) :
      PiecesText (text ++ texts)

/-! ## Reading -/

variable (read rest : List Char)

/-- Every character takes a byte. -/
lemma hasUnit_cons (a b c d : Char) : hasUnit (a :: b :: c :: d :: rest) = true := by
  have ha := a.utf8Size_pos
  have hb := b.utf8Size_pos
  have hc := c.utf8Size_pos
  have hd := d.utf8Size_pos
  refine decide_eq_true ?_
  simp only [List.take_succ_cons, List.take_zero, List.foldr_cons, List.foldr_nil]
  omega

/-- The letter of a unit is no letter of an escape. -/
lemma ne_of_letterEscape {l c : Char} (h : letterEscape? l = some c) : l ≠ 'u' := by
  rintro rfl
  cases h

/-- A unit is read as what it means. -/
lemma readStringFrom_unitText (high : Option ℕ) {n : ℕ} {ds : List Char} (h : UnitText n ds) :
    readStringFrom (.unit high 0 0) read (ds ++ rest) =
      match unitMeaning high n with
      | .char e => readStringFrom .inside (e :: read) rest
      | .half h => readStringFrom (.pairEscape h) read rest
      | .unpaired => .error .malformed := by
  cases h with
  | digits ha hb hc hd =>
    simp only [List.cons_append, List.nil_append, readStringFrom, ha, hb, hc, hd, Nat.zero_mul,
      Nat.zero_add]
    rfl

/-- Behind the letter of an escape there are the four bytes of a unit. -/
lemma hasUnit_unitText {n : ℕ} {ds : List Char} (h : UnitText n ds) :
    hasUnit (ds ++ rest) = true := by
  cases h with
  | digits => exact hasUnit_cons rest _ _ _ _

/-- The unit of a character is no half of a pair. -/
lemma unitMeaning_toNat (c : Char) : unitMeaning none c.toNat = .char c := by
  have hvalid : c.toNat < 0xD800 ∨ 0xDFFF < c.toNat ∧ c.toNat < 0x110000 := c.valid
  have hhalf : isLowUnit c.toNat = false ∧ isHighUnit c.toNat = false := by
    simp only [isLowUnit, isHighUnit, Bool.and_eq_false_iff, decide_eq_false_iff_not]
    omega
  simp [unitMeaning, hhalf]

/-- Two units that pair up mean their character. -/
lemma unitMeaning_pair {c : Char} {high low : ℕ} (hhigh : isHighUnit high = true)
    (hlow : isLowUnit low = true) (hc : c.toNat = (high - 0xD800) * 0x400 + (low - 0xDC00) + 0x10000) :
    unitMeaning none high = .half high ∧ unitMeaning (some high) low = .char c := by
  have hother : isLowUnit high = false := by
    simp only [isLowUnit, isHighUnit, Bool.and_eq_false_iff, Bool.and_eq_true,
      decide_eq_false_iff_not, decide_eq_true_eq] at hhigh ⊢
    omega
  have hchar : pairChar high low = c := by rw [pairChar, ← hc, Char.ofNat_toNat]
  simp [unitMeaning, hother, hhigh, hlow, hchar]

variable {rest} in
/-- **A character is read**, however it is written, and the string goes on. -/
theorem readStringFrom_charText {c : Char} {text : List Char} (h : CharText c text) :
    readStringFrom .inside read (text ++ rest) = readStringFrom .inside (c :: read) rest := by
  cases h with
  | itself hmark hslash hcontrol =>
    simp [readStringFrom, hmark, hslash, Nat.not_lt.2 hcontrol]
  | letter hletter => simp [readStringFrom, hletter, ne_of_letterEscape hletter]
  | unit hunit =>
    have hread := readStringFrom_unitText read rest none hunit
    rw [unitMeaning_toNat] at hread
    simpa [readStringFrom, hasUnit_unitText rest hunit] using hread
  | @pair high low ds es hhigh hlow hc hds hes =>
    obtain ⟨hhalf, hpair⟩ := unitMeaning_pair hhigh hlow hc
    have hfirst := readStringFrom_unitText read ('\\' :: 'u' :: (es ++ rest)) none hds
    have hsecond := readStringFrom_unitText read rest (some high) hes
    rw [hhalf] at hfirst
    rw [hpair] at hsecond
    simp only [List.cons_append, List.append_assoc]
    simp [readStringFrom, hasUnit_unitText _ hds, hasUnit_unitText _ hes, hfirst, hsecond]

/-- Characters are read up to the closing mark. -/
lemma readStringFrom_charsText {cs text : List Char} (h : CharsText cs text) :
    readStringFrom .inside read (text ++ '\x22' :: rest) =
      .ok (String.ofList (read.reverse ++ cs), rest) := by
  induction h generalizing read with
  | nil =>
    rw [List.append_nil]
    rfl
  | cons head _ ih =>
    rw [List.append_assoc, readStringFrom_charText read head, ih, List.reverse_cons,
      List.append_assoc, List.singleton_append]

/-- **A string is read**, however it is written. -/
theorem readString_charsText {s : String} {text : List Char} (h : CharsText s.toList text) :
    readString (text ++ '\x22' :: rest) = .ok (s, rest) := by
  rw [readString, readStringFrom_charsText [] rest h, List.reverse_nil, List.nil_append,
    String.ofList_toList]

/-! ## Skipping -/

variable {rest} in
/-- A piece of a string is skipped, and the string goes on. -/
lemma skipStringFrom_pieceText {text : List Char} (h : PieceText text) :
    skipStringFrom .inside (text ++ rest) = skipStringFrom .inside rest := by
  cases h with
  | itself hmark hslash hcontrol =>
    simp [skipStringFrom, hmark, hslash, Nat.not_lt.2 hcontrol]
  | letter hletter =>
    obtain ⟨c, hc⟩ := Option.isSome_iff_exists.1 hletter
    simp [skipStringFrom, hc, ne_of_letterEscape hc]
  | unit hunit =>
    have hbytes := hasUnit_unitText rest hunit
    cases hunit with
    | digits ha hb hc hd =>
      simp only [List.cons_append, List.nil_append] at hbytes
      simp [skipStringFrom, hbytes, ha, hb, hc, hd]

/-- **A string that is not used is skipped**, whatever units it holds. -/
theorem skipString_piecesText {text : List Char} (h : PiecesText text) :
    skipString (text ++ '\x22' :: rest) = .ok rest := by
  induction h with
  | nil => rfl
  | cons head _ ih =>
    rw [skipString, List.append_assoc, skipStringFrom_pieceText head]
    exact ih

/-! ## Writing -/

/-- The digits of a unit are digits. -/
lemma hexDigit?_digitChar {n : ℕ} (h : n < 16) : hexDigit? (Nat.digitChar n) = some n := by
  revert n
  decide

/-- A control character is written by its unit. -/
lemma unitText_of_lt {n : ℕ} (h : n < 0x20) :
    UnitText n ['0', '0', Nat.digitChar (n / 16), Nat.digitChar (n % 16)] := by
  have hzero : hexDigit? '0' = some 0 := by decide
  have hhigh := hexDigit?_digitChar (show n / 16 < 16 by omega)
  have hlow := hexDigit?_digitChar (show n % 16 < 16 by omega)
  simpa [Nat.div_add_mod'] using UnitText.digits hzero hzero hhigh hlow

/-- **Characters are written in one of these ways.** -/
lemma charText_writeChar (c : Char) : CharText c (writeChar c) := by
  rw [writeChar]
  split_ifs with hmark hb hf hn hr ht hcontrol
  · rcases hmark with rfl | rfl <;> exact .letter rfl
  · subst hb; exact .letter rfl
  · subst hf; exact .letter rfl
  · subst hn; exact .letter rfl
  · subst hr; exact .letter rfl
  · subst ht; exact .letter rfl
  · exact .unit (unitText_of_lt hcontrol)
  · obtain ⟨hquote, hslash⟩ := not_or.1 hmark
    exact .itself hquote hslash (Nat.not_lt.1 hcontrol)

/-- The characters of a string are written one after the other. -/
lemma charsText_flatMap_writeChar (cs : List Char) : CharsText cs (cs.flatMap writeChar) := by
  induction cs with
  | nil => exact .nil
  | cons c cs ih => exact .cons (charText_writeChar c) ih

/-- Strings are written in one of these ways. -/
theorem stringText_writeString (s : String) : StringText s (writeString s) :=
  .quoted (charsText_flatMap_writeChar s.toList)

end Ribbon.Json
