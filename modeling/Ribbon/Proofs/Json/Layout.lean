import Ribbon.Proofs.Decimal.Margin
import Ribbon.Proofs.Json.Double
import Ribbon.Proofs.Json.Number

/-!
# The numbers that documents show

The layout of a decimal in a document is a written number in one of three forms: whole, with a point
among its digits, or with an exponent. Each has few enough digits for a 64-bit count, so none are
dropped when it is read.

## Main definitions

* `Ribbon.Json.Numeral.wholeForm`, `Ribbon.Json.Numeral.pointForm`,
  `Ribbon.Json.Numeral.exponentForm` — the three forms.
* `Ribbon.Json.Numeral.ofDecimal` — the form that a document shows.

## Main results

* `Ribbon.Json.Numeral.text_ofDecimal` — its text is the layout of the decimal.
* `Ribbon.Json.Numeral.wellFormed_ofDecimal` — it is a written number.
* `Ribbon.Json.Numeral.parts_ofDecimal` — its digits and its power of ten.
-/

set_option relaxedAutoImplicit false
set_option autoImplicit false

namespace Ribbon.Json.Numeral

open Decimal (digits ofDigits)

/-! ## Counts -/

/-- Digits that fit into 64 bits are all taken. -/
lemma absorb_of_lt {count : ℕ} {ds : List Char}
    (h : Nat.ofDigitChars 10 ds count < UInt64.size) :
    absorb count ds = (Nat.ofDigitChars 10 ds count, 0) := by
  induction ds generalizing count with
  | nil => rfl
  | cons d ds ih =>
    have hnext : ofDigits [d] + 10 * count = 10 * count + (d.toNat - '0'.toNat) := by
      rw [ofDigits, Nat.ofDigitChars_cons, Nat.ofDigitChars_nil]
      omega
    rw [Nat.ofDigitChars_cons, ← hnext] at h ⊢
    have hlt : ofDigits [d] + 10 * count < UInt64.size := by
      rw [Nat.ofDigitChars_eq_ofDigitChars_zero] at h
      have := Nat.le_mul_of_pos_left (ofDigits [d] + 10 * count) (Nat.pow_pos (n := ds.length)
        (show 0 < 10 by decide))
      omega
    rw [absorb, if_pos hlt]
    exact ih h

/-- The digits of a number that fit into 64 bits, and its power of ten. -/
lemma parts_of_lt {n : Numeral} (h : n.coefficient < UInt64.size) :
    n.parts = (n.coefficient, n.writtenExponent - n.fraction.length) := by
  have hsplit : n.coefficient = Nat.ofDigitChars 10 n.fraction (Nat.ofDigitChars 10 n.whole 0) :=
    Nat.ofDigitChars_append 0
  have hwhole : Nat.ofDigitChars 10 n.whole 0 < UInt64.size := by
    rw [hsplit, Nat.ofDigitChars_eq_ofDigitChars_zero] at h
    have := Nat.le_mul_of_pos_left (Nat.ofDigitChars 10 n.whole 0)
      (Nat.pow_pos (n := n.fraction.length) (show 0 < 10 by decide))
    omega
  rw [parts, absorb_of_lt hwhole]
  simp only
  rw [absorb_of_lt (hsplit ▸ h), ← hsplit]
  simp

/-! ## The three forms -/

variable (negative : Bool) (d : Decimal)

/-- A whole number with a zero behind the point. -/
def wholeForm : Numeral where
  negative := negative
  whole := digits d.coefficient ++ List.replicate d.exponent.toNat '0'
  fraction := ['0']
  exponent := none

/-- The digits of a decimal below its places, with zeros in front as needed for a digit before the
point. -/
def padded : List Char :=
  List.replicate ((-d.exponent).toNat + 1 - (digits d.coefficient).length) '0' ++
    digits d.coefficient

/-- A number with a point among its digits. -/
def pointForm : Numeral where
  negative := negative
  whole := (padded d).take ((padded d).length - (-d.exponent).toNat)
  fraction := (padded d).drop ((padded d).length - (-d.exponent).toNat)
  exponent := none

/-- A number with one digit before the point and an exponent. -/
def exponentForm : Numeral where
  negative := negative
  whole := (digits d.coefficient).take 1
  fraction := (digits d.coefficient).drop 1
  exponent := some (Decimal.Style.leadingExponent d < 0,
    digits (Decimal.Style.leadingExponent d).natAbs)

/-- The form of a decimal that a document shows. -/
def ofDecimal : Numeral :=
  if Decimal.Style.document32.isPositional d then
    if 0 ≤ d.exponent then wholeForm negative d else pointForm negative d
  else exponentForm negative d

/-- The shown form has the sign that is asked for. -/
@[simp]
lemma negative_ofDecimal : (ofDecimal negative d).negative = negative := by
  rw [ofDecimal]
  split_ifs <;> rfl

/-! ## Texts -/

variable {d}

/-- There are zeros enough for a digit before the point. -/
lemma lt_length_padded : (-d.exponent).toNat < (padded d).length := by
  simp only [padded, List.length_append, List.length_replicate]
  omega

/-- All the places of the decimal are behind the point. -/
lemma length_fraction_pointForm :
    (pointForm negative d).fraction.length = (-d.exponent).toNat := by
  have := lt_length_padded (d := d)
  rw [pointForm, List.length_drop]
  omega

/-- A decimal that is no whole number has places. -/
lemma isEmpty_fraction_pointForm (h : ¬0 ≤ d.exponent) :
    (pointForm negative d).fraction.isEmpty = false := by
  have := length_fraction_pointForm negative (d := d)
  rw [List.isEmpty_eq_false_iff, ← List.length_pos_iff]
  omega

variable (d) in
/-- The text of the shown form is the layout. -/
theorem text_ofDecimal : (ofDecimal negative d).text =
    (ofDecimal negative d).signText ++ Decimal.Style.document32.layout d := by
  rw [ofDecimal, Decimal.Style.layout]
  split_ifs with hpositional hwhole
  · rw [Decimal.Style.positional, if_pos hwhole]
    simp [text, fractionText, exponentText, wholeForm, Decimal.Style.document32]
  · rw [Decimal.Style.positional, if_neg hwhole, text, fractionText,
      isEmpty_fraction_pointForm negative hwhole]
    simp [exponentText, pointForm, padded]
  · obtain ⟨c, cs, hdigits⟩ := List.exists_cons_of_ne_nil (Decimal.digits_ne_nil d.coefficient)
    rw [Decimal.Style.scientific, hdigits]
    cases cs <;> simp [text, fractionText, exponentText, exponentForm, hdigits]

/-! ## Digits -/

/-- The digits that are shown are digits. -/
lemma isDigit_of_mem_padded {c : Char} (h : c ∈ padded d) : c.isDigit = true := by
  rcases List.mem_append.1 h with hzero | hdigit
  · rw [List.eq_of_mem_replicate hzero]
    decide
  · exact Decimal.isDigit_of_mem_digits hdigit

/-- A whole number is shown as a written number. -/
lemma wellFormed_wholeForm (hd : 0 < d.coefficient) : (wholeForm negative d).WellFormed where
  whole_ne_nil := by simp [wholeForm, Decimal.digits_ne_nil]
  isDigit_whole := by
    intro c hc
    rcases List.mem_append.1 hc with hdigit | hzero
    · exact Decimal.isDigit_of_mem_digits hdigit
    · rw [List.eq_of_mem_replicate hzero]
      decide
  length_whole hzero :=
    absurd (Decimal.head?_digits_append _ _ ▸ hzero) (Decimal.head?_digits_ne_zero hd)
  isDigit_fraction := by simp [wholeForm]
  exponent_ne_nil := by simp [wholeForm]
  isDigit_exponent := by simp [wholeForm]

/-- A number with a point among its digits is shown as a written number. -/
lemma wellFormed_pointForm (hd : 0 < d.coefficient) : (pointForm negative d).WellFormed where
  whole_ne_nil := by
    have := lt_length_padded (d := d)
    rw [← List.length_pos_iff, pointForm, List.length_take]
    omega
  isDigit_whole c hc := isDigit_of_mem_padded (List.mem_of_mem_take hc)
  length_whole hzero := by
    rcases le_or_gt (digits d.coefficient).length (-d.exponent).toNat with hshort | hlong
    · simp only [pointForm, padded, List.length_take, List.length_append, List.length_replicate]
      omega
    · have hnone : (-d.exponent).toNat + 1 - (digits d.coefficient).length = 0 := by omega
      have hpadded : padded d = digits d.coefficient := by simp [padded, hnone]
      rw [pointForm, hpadded, List.head?_take, if_neg (by omega)] at hzero
      exact absurd hzero (Decimal.head?_digits_ne_zero hd)
  isDigit_fraction c hc := isDigit_of_mem_padded (List.mem_of_mem_drop hc)
  exponent_ne_nil := by simp [pointForm]
  isDigit_exponent := by simp [pointForm]

/-- A number with an exponent is shown as a written number. -/
lemma wellFormed_exponentForm (d : Decimal) : (exponentForm negative d).WellFormed where
  whole_ne_nil := by simp [exponentForm, Decimal.digits_ne_nil]
  isDigit_whole c hc := Decimal.isDigit_of_mem_digits (List.mem_of_mem_take hc)
  length_whole _ := by
    have := List.length_pos_iff.2 (Decimal.digits_ne_nil d.coefficient)
    rw [exponentForm, List.length_take]
    omega
  isDigit_fraction c hc := Decimal.isDigit_of_mem_digits (List.mem_of_mem_drop hc)
  exponent_ne_nil := by simp [exponentForm, Decimal.digits_ne_nil]
  isDigit_exponent := by
    simp only [exponentForm, Option.mem_def, Option.some.injEq, forall_eq']
    exact fun c hc => Decimal.isDigit_of_mem_digits hc

/-- The shown form is a written number. -/
theorem wellFormed_ofDecimal (hd : 0 < d.coefficient) : (ofDecimal negative d).WellFormed := by
  rw [ofDecimal]
  split_ifs
  · exact wellFormed_wholeForm negative hd
  · exact wellFormed_pointForm negative hd
  · exact wellFormed_exponentForm negative d

/-- Documents show single-precision numbers with a point or an exponent. -/
lemma isWhole_ofDecimal (d : Decimal) : (ofDecimal negative d).isWhole = false := by
  rw [ofDecimal]
  split_ifs with hpositional hwhole
  · rfl
  · rw [isWhole, isEmpty_fraction_pointForm negative hwhole, Bool.false_and]
  · simp [isWhole, exponentForm]

/-! ## Values -/

variable (d)

/-- The zeros of a whole number are digits of its coefficient. -/
lemma coefficient_wholeForm : (wholeForm negative d).coefficient =
    d.coefficient * 10 ^ (d.exponent.toNat + 1) := by
  have hdigits : Nat.ofDigitChars 10 (digits d.coefficient) 0 = d.coefficient :=
    Decimal.ofDigits_digits d.coefficient
  rw [coefficient, wholeForm, ofDigits, Nat.ofDigitChars_append, Nat.ofDigitChars_append, hdigits,
    Nat.ofDigitChars_replicate_zero, Nat.ofDigitChars_cons, Nat.ofDigitChars_nil, pow_succ]
  simp
  ring

/-- The zeros in front do not change the coefficient. -/
lemma coefficient_pointForm : (pointForm negative d).coefficient = d.coefficient := by
  have hdigits : Nat.ofDigitChars 10 (digits d.coefficient) 0 = d.coefficient :=
    Decimal.ofDigits_digits d.coefficient
  rw [coefficient, pointForm, List.take_append_drop, padded, ofDigits, Nat.ofDigitChars_append,
    Nat.ofDigitChars_replicate_zero, Nat.mul_zero, hdigits]

/-- The point does not change the coefficient. -/
lemma coefficient_exponentForm : (exponentForm negative d).coefficient = d.coefficient := by
  rw [coefficient, exponentForm, List.take_append_drop, Decimal.ofDigits_digits]

/-- The exponent that is shown is that of the leading digit. -/
lemma writtenExponent_exponentForm : (exponentForm negative d).writtenExponent =
    Decimal.Style.leadingExponent d := by
  simp only [writtenExponent, exponentForm, Decimal.ofDigits_digits, decide_eq_true_eq]
  split_ifs <;> omega

variable {d}

/-- A whole number that is shown positionally has at most thirteen digits. -/
lemma lt_of_isPositional (hpositional : Decimal.Style.document32.isPositional d = true)
    (hwhole : 0 ≤ d.exponent) : d.coefficient * 10 ^ (d.exponent.toNat + 1) < 10 ^ 14 := by
  have hlength := List.length_pos_iff.2 (Decimal.digits_ne_nil d.coefficient)
  have hfew : (digits d.coefficient).length + d.exponent.toNat ≤ 13 := by
    have hlast : Decimal.Style.leadingExponent d ≤ 12 :=
      of_decide_eq_true (Bool.and_elim_right hpositional)
    rw [Decimal.Style.leadingExponent] at hlast
    omega
  have hlt : d.coefficient < 10 ^ (digits d.coefficient).length :=
    (Decimal.length_digits_le_iff hlength).1 le_rfl
  calc d.coefficient * 10 ^ (d.exponent.toNat + 1)
      < 10 ^ (digits d.coefficient).length * 10 ^ (d.exponent.toNat + 1) :=
        Nat.mul_lt_mul_of_pos_right hlt (by positivity)
    _ = 10 ^ ((digits d.coefficient).length + d.exponent.toNat + 1) := by rw [← pow_add]; rfl
    _ ≤ 10 ^ 14 := Nat.pow_le_pow_right (by decide) (by omega)

/-- The digits and the power of ten of the shown form: those of the decimal, unless it is shown whole. -/
theorem parts_ofDecimal (h : d.Small) :
    (ofDecimal negative d).parts = (d.coefficient, d.exponent) ∨
      0 ≤ d.exponent ∧ d.coefficient * 10 ^ (d.exponent.toNat + 1) < 10 ^ 14 ∧
        (ofDecimal negative d).parts = (d.coefficient * 10 ^ (d.exponent.toNat + 1), -1) := by
  have hlt := h.lt
  have hsize : UInt64.size = 2 ^ 64 := rfl
  rw [ofDecimal]
  split_ifs with hpositional hwhole
  · have hcount := lt_of_isPositional hpositional hwhole
    have hcoefficient := coefficient_wholeForm negative d
    refine .inr ⟨hwhole, hcount, ?_⟩
    rw [parts_of_lt (by omega), hcoefficient]
    rfl
  · have hcoefficient := coefficient_pointForm negative d
    left
    rw [parts_of_lt (by omega), hcoefficient, length_fraction_pointForm]
    simp only [writtenExponent, pointForm, Prod.mk.injEq, true_and]
    omega
  · have hcoefficient := coefficient_exponentForm negative d
    have hlength := List.length_pos_iff.2 (Decimal.digits_ne_nil d.coefficient)
    left
    rw [parts_of_lt (by omega), hcoefficient, writtenExponent_exponentForm]
    simp only [exponentForm, List.length_drop, Decimal.Style.leadingExponent, Prod.mk.injEq, true_and]
    omega

section

variable (h : d.Small)

include h

/-- The shown form is of moderate size. -/
lemma moderate_ofDecimal :
    Moderate (ofDecimal negative d).parts.1 (ofDecimal negative d).parts.2 := by
  have hlt := h.lt
  have hlow := h.low
  have hhigh := h.high
  rcases parts_ofDecimal negative h with hparts | ⟨-, hcount, hparts⟩
  · rw [hparts]
    exact ⟨h.pos, by omega, by omega, hhigh.le⟩
  · rw [hparts]
    exact ⟨Nat.mul_pos h.pos (by positivity), by omega, by norm_num, by norm_num⟩

/-- The value of the shown form is the decimal. -/
lemma value_ofDecimal :
    ((ofDecimal negative d).parts.1 : ℚ) * 10 ^ (ofDecimal negative d).parts.2 = d.value := by
  rcases parts_ofDecimal negative h with hparts | ⟨hwhole, -, hparts⟩
  · rw [hparts, Decimal.value]
  · have hexponent : (10 : ℚ) ^ d.exponent = 10 ^ d.exponent.toNat := by
      rw [← zpow_natCast, Int.toNat_of_nonneg hwhole]
    rw [hparts, Decimal.value, hexponent, zpow_neg_one]
    push_cast
    rw [pow_succ]
    field_simp

/-- The power of ten of the shown form. -/
lemma exponent_ofDecimal :
    (ofDecimal negative d).parts.2 = d.exponent ∨ (ofDecimal negative d).parts.2 = -1 := by
  rcases parts_ofDecimal negative h with hparts | ⟨-, -, hparts⟩ <;> simp [hparts]

end

end Ribbon.Json.Numeral
