import Ribbon.Proofs.Json.Layout

/-!
# Single-precision numbers of documents

A single-precision number is written with its shortest decimal, read as a double and rounded. The
double is close enough to the decimal for the number to come back. The exceptional decimal, which is
nearly half-way to another number, comes back as well, since the rounding of its double happens to go
the right way; the nearest double would be the half-way point.

## Main definitions

* `Ribbon.Json.Numeral.Reads` — what a written number is read as.
* `Ribbon.Json.Numeral.Writes` — the written form of a single-precision number.

## Main results

* `Ribbon.Json.Numeral.reads_ofDecimal` — the shortest decimal is read back.
* `Ribbon.Json.singleText_writeSingle` — so is every finite number.
-/

set_option relaxedAutoImplicit false
set_option autoImplicit false

namespace Ribbon.Binary

open Float.Model (Format UnpackedFloat)

/-- The negative of a number has its size. -/
lemma Fits.neg {spec : Format} {u : UnpackedFloat} (h : Fits spec u) : Fits spec u.neg := by
  cases h with
  | notANumber => exact .notANumber
  | infinity s => exact .infinity _
  | zero s => exact .zero _
  | finite s m e hpos hcanonical hmax => exact .finite _ m e hpos hcanonical hmax

/-- The negative of a double is decoded as the negative. -/
lemma double_unpack_neg (x : Float) : (-x).toModel.unpack = x.toModel.unpack.neg :=
  double_unpack_pack (fits_unpack (by decide) _).neg

end Ribbon.Binary

namespace Ribbon.Json

open Float.Model (Format UnpackedFloat)
open Ribbon.Binary
open Ribbon.Binary32 (decode encode)

namespace Numeral

/-! ## Reading the shortest decimal -/

/-- The sign of a number. -/
def sign (n : Numeral) : UnpackedFloat.Sign := if n.negative then .negative else .positive

/-- A written number is read as a single-precision number. -/
structure Reads (n : Numeral) (x : Float32) : Prop where
  isInf_toDouble : n.toDouble.isInf = false
  ofDouble_toDouble : Binary32.ofDouble n.toDouble = x

/-- A number is read as what its double is rounded to. -/
lemma reads_of_holds {n : Numeral} {v : ℚ} (h : Holds (scaled n.parts.1 n.parts.2) v) {m : ℕ}
    {e : ℤ} (hm : 0 < m) (hcanonical : Canonical .binary32 m e)
    (hround : rounded .binary32 v = m * 2 ^ e) : n.Reads (encode (.finite n.sign m e hm)) := by
  obtain ⟨k, f, hk, hdecoded, -, rfl⟩ := h
  have hdouble : n.toDouble.toModel.unpack = .finite n.sign k f hk := by
    cases hnegative : n.negative
    · simp only [toDouble, sign, hnegative]
      exact hdecoded
    · simp only [toDouble, sign, hnegative, if_true]
      rw [double_unpack_neg, hdecoded]
      rfl
  constructor
  · exact congrArg UnpackedFloat.isInf hdouble
  · have hshows := shows_round .binary32 f n.sign hk
    rw [Binary32.ofDouble, hdouble]
    exact congrArg encode (hshows.eq_of_rounded hm hcanonical hround)

/-- The exceptional decimal is read back. -/
lemma reads_exceptional (negative : Bool) :
    (ofDecimal negative Decimal.exceptional).Reads
      (encode (.finite (ofDecimal negative Decimal.exceptional).sign 11420669 (-107) (by decide))) := by
  cases negative <;> exact ⟨by decide +kernel, by decide +kernel⟩

/-- **The shortest decimal is read back.** -/
theorem reads_ofDecimal (negative : Bool) {m : ℕ} {e : ℤ} (hm : 0 < m)
    (hcanonical : Canonical .binary32 m e) (hmax : e ≤ 104) :
    let n := ofDecimal negative (Decimal.shortest .binary32 .toEven m e)
    n.Reads (encode (.finite n.sign m e hm)) := by
  obtain ⟨hsmall, hsafe⟩ := Decimal.safe_shortest hm hcanonical hmax
  generalize Decimal.shortest .binary32 .toEven m e = d at *
  have hmoderate := moderate_ofDecimal negative hsmall
  have hvalue := value_ofDecimal negative hsmall
  rcases hsafe with (hmargin | ⟨hround, hdigits, hlow, hhigh⟩) | ⟨rfl, rfl, rfl⟩
  · obtain ⟨v, hv, hclose⟩ := hmoderate.exists_holds
    rw [hvalue] at hclose
    exact reads_of_holds hv hm hcanonical (hmargin v hclose)
  · obtain ⟨k, hk, hdigits⟩ := hdigits
    have hmin : -149 ≤ e := hcanonical.minExponent_le
    have hexponent := exponent_ofDecimal negative hsmall
    have hholds := hmoderate.holds_exact (by omega) (by omega) (show k < 2 ^ 53 by omega)
      (show -1000 ≤ e - 1 by omega) (hvalue.trans hdigits)
    rw [hvalue] at hholds
    exact reads_of_holds hholds hm hcanonical hround
  · exact reads_exceptional negative

/-! ## Written numbers -/

/-- A number is the written form of a single-precision number. -/
structure Writes (n : Numeral) (x : Float32) : Prop where
  text_eq : n.text = writeSingle x
  wellFormed : n.WellFormed
  isWhole_eq : n.isWhole = false
  reads : n.Reads x

/-- The sign of a number is written as the sign of its value. -/
lemma signText_sign (n : Numeral) : Decimal.Style.signText n.sign = n.signText := by
  rw [sign, signText]
  split_ifs <;> rfl

/-- The shortest decimal is the written form. -/
lemma writes_ofDecimal (negative : Bool) {m : ℕ} {e : ℤ} (hm : 0 < m)
    (hcanonical : Canonical .binary32 m e) (hmax : e ≤ 104) :
    let n := ofDecimal negative (Decimal.shortest .binary32 .toEven m e)
    n.Writes (encode (.finite n.sign m e hm)) := by
  intro n
  have hsmall := (Decimal.safe_shortest hm hcanonical hmax).1
  have hdecoded : decode (encode (.finite n.sign m e hm)) = .finite n.sign m e hm :=
    Binary32.decode_encode (.finite _ m e hm hcanonical hmax)
  have htext : writeSingle (encode (.finite n.sign m e hm)) = Decimal.Style.signText n.sign ++
      Decimal.Style.document32.layout (Decimal.shortest .binary32 .toEven m e) := by
    rw [writeSingle, ← decode, hdecoded]
    exact String.toList_ofList
  exact {
    text_eq := by rw [htext, signText_sign, text_ofDecimal]
    wellFormed := wellFormed_ofDecimal negative hsmall.pos
    isWhole_eq := isWhole_ofDecimal negative _
    reads := reads_ofDecimal negative hm hcanonical hmax }

/-- A zero with its sign. -/
def zero (negative : Bool) : Numeral := ⟨negative, ['0'], ['0'], none⟩

/-- A zero is a written number. -/
lemma wellFormed_zero (negative : Bool) : (zero negative).WellFormed where
  whole_ne_nil := by simp [zero]
  isDigit_whole := by simp [zero]
  length_whole := by simp [zero]
  isDigit_fraction := by simp [zero]
  exponent_ne_nil := by simp [zero]
  isDigit_exponent := by simp [zero]

/-- A zero is read with its sign. -/
lemma reads_zero (negative : Bool) : (zero negative).Reads (encode (.zero (zero negative).sign)) := by
  cases negative <;> exact ⟨by decide +kernel, by decide +kernel⟩

/-- Every finite number is written as a number that is read back. -/
lemma exists_writes {x : Float32} (h : x.isFinite = true) : ∃ n : Numeral, n.Writes x := by
  have hx := Binary32.encode_decode x
  have hfits := Binary32.fits_decode x
  have htext : writeSingle x = (Decimal.Style.document32.text (decode x)).toList := rfl
  replace h : (decode x).isFinite = true := h
  generalize decode x = u at *
  subst hx
  cases hfits with
  | notANumber => cases h
  | infinity s => cases h
  | zero s =>
    cases s
    · exact ⟨zero true, htext.symm, wellFormed_zero true, rfl, reads_zero true⟩
    · exact ⟨zero false, htext.symm, wellFormed_zero false, rfl, reads_zero false⟩
  | finite s m e hm hcanonical hmax =>
    have hwrites (negative : Bool) := writes_ofDecimal negative hm hcanonical hmax
    simp only [sign, negative_ofDecimal] at hwrites
    cases s
    · exact ⟨_, hwrites true⟩
    · exact ⟨_, hwrites false⟩

end Numeral

/-! ## Values -/

/-- **A finite number is written in one of the ways** that are read as it. -/
theorem singleText_writeSingle {x : Float32} (h : x.isFinite = true) :
    SingleText x (writeSingle x) := by
  obtain ⟨n, hn⟩ := Numeral.exists_writes h
  have hvalue := Numeral.value?_of_isInf_eq_false hn.isWhole_eq hn.reads.isInf_toDouble
  rw [← hn.text_eq]
  exact .number (.numeral hn.wellFormed.numeralText hvalue) hn.reads.ofDouble_toDouble

end Ribbon.Json
