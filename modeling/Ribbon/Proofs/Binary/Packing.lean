import Ribbon.Proofs.Binary.Nearest
import Ribbon.Vector

/-!
# Packing

The binary encoding of numbers and their decoded values say the same. A decoded value of a format has
one mantissa and exponent only: the mantissa has all its digits unless the exponent is the least.

## Main definitions

* `Ribbon.Binary.Canonical` — the mantissa and exponent that a format gives to a number.
* `Ribbon.Binary.Fits` — the decoded values that a format can encode.

## Main results

* `Ribbon.Binary.unpack_pack` — what is encoded is decoded. The other direction is in the library.
* `Ribbon.Binary.fits_unpack` — what is decoded can be encoded.
* `Ribbon.Binary.Canonical.unique` — a number has one canonical form.
-/

set_option relaxedAutoImplicit false
set_option autoImplicit false

namespace Ribbon.Binary

open Float.Model (Format UnpackedFloat totalExponent)
open Float.Model.UnpackedFloat

variable {spec : Format}

/-! ## Canonical forms -/

/-- The mantissa and exponent that a format gives to a number, zero included. -/
structure Canonical (spec : Format) (m : ℕ) (e : ℤ) : Prop where
  /-- The mantissa has no more digits than the format. -/
  lt : m < 2 ^ spec.mantissaBits
  minExponent_le : spec.minExponent ≤ e
  /-- It has fewer digits only at the least exponent. -/
  full : 2 ^ spec.mantissaBitsWithoutImplicit ≤ m ∨ e = spec.minExponent

variable (spec) in
/-- The greatest exponent that can be encoded. -/
def maxExponent : ℤ :=
  spec.exponentBias - spec.mantissaBitsWithoutImplicit

/-- The exponent of a canonical form is the quantum of its number. -/
lemma Canonical.quantum_eq {m : ℕ} {e : ℤ} (h : Canonical spec m e) (hm : 0 < m) :
    quantum spec (m * 2 ^ e) = e := by
  have hx : (0 : ℚ) < m * 2 ^ e := by positivity
  refine le_antisymm (quantum_le hx h.minExponent_le ?_) ?_
  · exact mul_lt_mul_of_pos_right (by exact_mod_cast h.lt) (by positivity)
  · rcases h.full with hfull | rfl
    · exact le_quantum hx (mul_le_mul_of_nonneg_right (by exact_mod_cast hfull) (by positivity))
    · exact minExponent_le_quantum _ _

/-- A canonical form is not changed by rounding. -/
lemma Canonical.rounded_eq {m : ℕ} {e : ℤ} (h : Canonical spec m e) :
    rounded spec (m * 2 ^ e) = m * 2 ^ e :=
  rounded_of_representable h.lt h.minExponent_le

section

variable {m : ℕ} {e : ℤ} {x : ℚ} (h : Canonical spec m e) (hm : 0 < m)
  (hpower : m ≠ 2 ^ spec.mantissaBitsWithoutImplicit ∨ e = spec.minExponent ∨ m * 2 ^ e ≤ x)
  (hinside : |x - m * 2 ^ e| ≤ 2 ^ e / 2)

include h hm hpower hinside

/-- All numbers in the rounding interval of a canonical form have its exponent as their quantum, except
below a power of two.

**Proof sketch.** The interval ends below the mantissa with one digit more. If the exponent is not the
least, the mantissa has all its digits, and at least half a unit can be taken away before it has fewer,
unless it is the power of two with which these mantissas begin. -/
lemma Canonical.quantum_of_near : quantum spec x = e := by
  have hpow : (0 : ℚ) < 2 ^ e := by positivity
  have hone : (1 : ℚ) ≤ m := by exact_mod_cast hm
  have hstep := mul_le_mul_of_nonneg_right hone hpow.le
  have hends := abs_le.1 hinside
  have hx : 0 < x := by linarith
  refine le_antisymm (quantum_le hx h.minExponent_le ?_) ?_
  · have htop : (m : ℚ) + 1 ≤ 2 ^ spec.mantissaBits := by exact_mod_cast h.lt
    have := mul_le_mul_of_nonneg_right htop hpow.le
    linarith
  · rcases eq_or_ne e spec.minExponent with rfl | hmin
    · exact minExponent_le_quantum _ _
    · have hfull := h.full.resolve_right hmin
      refine le_quantum hx ?_
      rcases hpower with hne | hleast | habove
      · have hlow : 2 ^ spec.mantissaBitsWithoutImplicit + 1 ≤ m := lt_of_le_of_ne hfull hne.symm
        have hlow : (2 : ℚ) ^ spec.mantissaBitsWithoutImplicit + 1 ≤ m := by exact_mod_cast hlow
        have := mul_le_mul_of_nonneg_right hlow hpow.le
        linarith
      · exact absurd hleast hmin
      · have hlow : (2 : ℚ) ^ spec.mantissaBitsWithoutImplicit ≤ m := by exact_mod_cast hfull
        exact (mul_le_mul_of_nonneg_right hlow hpow.le).trans habove

/-- All numbers in the rounding interval of a canonical form are rounded to it, except below a power of
two, where the interval is shorter. -/
lemma Canonical.rounded_eq_of_near (heven : |x - m * 2 ^ e| = 2 ^ e / 2 → m % 2 = 0) :
    rounded spec x = m * 2 ^ e := by
  have hquantum := h.quantum_of_near hm hpower hinside
  have hrounded := rounded_eq_of_quantum (n := m) hquantum (by exact_mod_cast hinside) fun htie => by
    exact_mod_cast heven (by exact_mod_cast htie)
  exact_mod_cast hrounded

end

/-- Below a power of two only half as large an interval is rounded to it.

**Proof sketch.** The power of two itself is a number of the format. What is below has the next smaller
quantum, of which the power of two is a multiple as well, and the nearest one. -/
lemma rounded_eq_two_pow {e : ℤ} {x : ℚ} (he : spec.minExponent < e)
    (hle : x ≤ 2 ^ spec.mantissaBitsWithoutImplicit * 2 ^ e)
    (hlt : 2 ^ spec.mantissaBitsWithoutImplicit * 2 ^ e - 2 ^ e / 4 < x) :
    rounded spec x = 2 ^ spec.mantissaBitsWithoutImplicit * 2 ^ e := by
  rcases eq_or_lt_of_le hle with rfl | hbelow
  · have hlt : 2 ^ spec.mantissaBitsWithoutImplicit < 2 ^ spec.mantissaBits :=
      Nat.pow_lt_pow_right (by decide) (by simp [Format.mantissaBits])
    have h := rounded_of_representable hlt he.le
    rwa [Nat.cast_pow, Nat.cast_ofNat] at h
  · have hhalf := two_zpow_eq_two_mul e
    have hpow : (0 : ℚ) < 2 ^ (e - 1) := by positivity
    have hbits : (2 : ℚ) ^ spec.mantissaBits = 2 * 2 ^ spec.mantissaBitsWithoutImplicit := by
      rw [Format.mantissaBits, pow_add, pow_one]
    have hone : (1 : ℚ) ≤ 2 ^ spec.mantissaBitsWithoutImplicit := one_le_pow₀ (by norm_num)
    have hstep := mul_le_mul_of_nonneg_right hone hpow.le
    rw [hhalf] at hbelow hlt ⊢
    have hx : 0 < x := by linarith
    have hquantum : quantum spec x = e - 1 := by
      refine le_antisymm (quantum_le hx (by omega) ?_) (le_quantum hx ?_)
      · rw [hbits]
        linarith
      · linarith
    have hclose : |x - ((2 * 2 ^ spec.mantissaBitsWithoutImplicit : ℤ) : ℚ) * 2 ^ (e - 1)| <
        2 ^ (e - 1) / 2 := by
      push_cast
      rw [abs_lt]
      constructor <;> linarith
    rw [rounded_eq_of_quantum hquantum hclose.le fun htie => absurd htie hclose.ne]
    push_cast
    ring

/-- A positive number has one canonical form. -/
theorem Canonical.unique {m n : ℕ} {e f : ℤ} (h : Canonical spec m e) (h' : Canonical spec n f)
    (hm : 0 < m) (heq : (m : ℚ) * 2 ^ e = n * 2 ^ f) : m = n ∧ e = f := by
  have hn : 0 < n := by
    by_contra hzero
    obtain rfl : n = 0 := by omega
    have hpos : (0 : ℚ) < m * 2 ^ e := by positivity
    rw [heq] at hpos
    simp at hpos
  have hexp : e = f := by
    rw [← h.quantum_eq hm, ← h'.quantum_eq hn, heq]
  subst hexp
  have hpow : (2 : ℚ) ^ e ≠ 0 := by positivity
  exact ⟨by exact_mod_cast mul_right_cancel₀ hpow heq, rfl⟩

/-! ## Exponents as they are encoded -/

variable (spec) in
/-- The least exponent, by the bias. -/
lemma minExponent_eq :
    spec.minExponent = 1 - spec.exponentBias - spec.mantissaBitsWithoutImplicit := by
  have hpos : 1 ≤ 2 ^ (spec.exponentBits - 1) := Nat.one_le_two_pow
  simp only [Format.minExponent, Format.exponentBias, Format.mantissaBits]
  push_cast [Nat.cast_sub hpos]
  ring

variable (spec) in
/-- The number of encoded exponents, by the bias. -/
lemma two_pow_exponentBits : 2 ^ spec.exponentBits = 2 * spec.exponentBias + 2 := by
  have hpos : 1 ≤ 2 ^ (spec.exponentBits - 1) := Nat.one_le_two_pow
  have hsplit : 2 ^ spec.exponentBits = 2 * 2 ^ (spec.exponentBits - 1) := by
    rw [← pow_succ', Nat.sub_add_cancel spec.he]
  simp only [Format.exponentBias]
  omega

/-- The encoded exponents of zero and of infinity differ. -/
lemma zero_ne_neg_one : (0#_ : BitVec spec.exponentBits) ≠ -1#_ := by
  intro h
  have hnat := congrArg BitVec.toNat h
  have hpow := two_pow_exponentBits spec
  simp only [BitVec.toNat_zero, BitVec.neg_one_eq_allOnes, BitVec.toNat_allOnes] at hnat
  omega

/-- A mantissa with the digit that is not encoded. -/
lemma toNat_one_append {w : ℕ} (m : BitVec w) : (1#1 ++ m).toNat = 2 ^ w + m.toNat := by
  rw [BitVec.toNat_append, ← Nat.shiftLeft_add_eq_or_of_lt m.isLt, Nat.shiftLeft_eq]
  simp

/-! ## Components -/

/-- An encoded infinity is decoded with its sign. -/
@[simp]
lemma unpack_packedInfinity (s : Sign) : unpack spec (packedInfinity spec s) = .infinity s := by
  simp [unpack, packedInfinity]

/-- A number at the least exponent. -/
lemma unpack_subnormal (s : Sign) {m : ℕ} (hpos : 0 < m)
    (hlt : m < 2 ^ spec.mantissaBitsWithoutImplicit) :
    unpack spec (packComponents spec s 0#_ (BitVec.ofNat _ m)) =
      .finite s m spec.minExponent hpos := by
  have hnat : (BitVec.ofNat spec.mantissaBitsWithoutImplicit m).toNat = m := by
    rw [BitVec.toNat_ofNat, Nat.mod_eq_of_lt hlt]
  have hne : BitVec.ofNat spec.mantissaBitsWithoutImplicit m ≠ 0#_ := by
    intro h
    rw [h, BitVec.toNat_zero] at hnat
    omega
  simp only [unpack, unpackSign_packComponents, unpackExponent_packComponents,
    unpackMantissa_packComponents, Sign.ofBitVec_toBitVec, if_neg zero_ne_neg_one, if_true, dif_neg hne,
    hnat, BitVec.toNat_zero, minExponent_eq, UnpackedFloat.finite.injEq, true_and]
  push_cast
  ring

/-- A number with all its digits. -/
lemma unpack_normal (s : Sign) {m b : ℕ} (hm : m.log2 + 1 = spec.mantissaBits) (hb : 0 < b)
    (hlt : b + 1 < 2 ^ spec.exponentBits) (hpos : 0 < m) :
    unpack spec (packComponents spec s (BitVec.ofNat _ b) (BitVec.ofNat _ m)) =
      .finite s m (b + spec.minExponent - 1) hpos := by
  have hnat : (BitVec.ofNat spec.exponentBits b).toNat = b := by
    rw [BitVec.toNat_ofNat, Nat.mod_eq_of_lt (by omega)]
  have hzero : BitVec.ofNat spec.exponentBits b ≠ 0#_ := by
    intro h
    rw [h, BitVec.toNat_zero] at hnat
    omega
  have hones : BitVec.ofNat spec.exponentBits b ≠ -1#_ := by
    intro h
    rw [h, BitVec.neg_one_eq_allOnes, BitVec.toNat_allOnes] at hnat
    omega
  have hmantissa : (1#1 ++ BitVec.ofNat spec.mantissaBitsWithoutImplicit m).toNat = m := by
    have hlog : m.log2 = spec.mantissaBitsWithoutImplicit := by
      simp only [Format.mantissaBits] at hm
      omega
    have hlow := (Nat.le_log2 hpos.ne').1 hlog.ge
    have hhigh := (Nat.log2_lt hpos.ne').1 (Nat.lt_succ_of_le hlog.le)
    rw [pow_succ] at hhigh
    rw [toNat_one_append, BitVec.toNat_ofNat, Nat.mod_eq_sub_mod hlow, Nat.mod_eq_of_lt (by omega)]
    omega
  simp only [unpack, unpackSign_packComponents, unpackExponent_packComponents,
    unpackMantissa_packComponents, Sign.ofBitVec_toBitVec, if_neg hones, if_neg hzero,
    hnat, hmantissa, minExponent_eq, UnpackedFloat.finite.injEq, true_and]
  ring

/-! ## Encoding and decoding -/

/-- The decoded values that a format can encode. -/
inductive Fits (spec : Format) : UnpackedFloat → Prop
  | notANumber : Fits spec .notANumber
  | infinity (s : Sign) : Fits spec (.infinity s)
  | zero (s : Sign) : Fits spec (.zero s)
  | finite (s : Sign) (m : ℕ) (e : ℤ) (hpos : 0 < m) (canonical : Canonical spec m e)
      (le_maxExponent : e ≤ maxExponent spec) : Fits spec (.finite s m e hpos)

/-- What is encoded is decoded. -/
theorem unpack_pack {u : UnpackedFloat} (h : Fits spec u) : unpack spec (pack spec u) = u := by
  cases h with
  | notANumber => exact unpack_packedNaN
  | infinity s => exact unpack_packedInfinity s
  | zero s => exact unpack_packedZero
  | finite s m e hpos hcanonical hmax =>
    have hpow := two_pow_exponentBits spec
    have hmin := hcanonical.minExponent_le
    have hbias := minExponent_eq spec
    simp only [maxExponent] at hmax
    have hlog : m.log2 < spec.mantissaBits := (Nat.log2_lt hpos.ne').2 hcanonical.lt
    rw [pack, if_neg (by omega)]
    split
    · next hfull =>
      rw [unpack_normal s hfull (by omega) (by omega) hpos]
      congr 1
      omega
    · next hfew =>
      have hlt : m < 2 ^ spec.mantissaBitsWithoutImplicit := by
        refine (Nat.log2_lt hpos.ne').1 ?_
        simp only [Format.mantissaBits] at hfew hlog
        omega
      rw [unpack_subnormal s hpos hlt]
      congr 1
      exact (hcanonical.full.resolve_left (by omega)).symm

/-- The encoded exponents of zero, of one and of infinity differ. -/
lemma exponentBias_pos (hspec : 1 < spec.exponentBits) : 0 < spec.exponentBias := by
  have hpow : 2 ^ 1 ≤ 2 ^ (spec.exponentBits - 1) := Nat.pow_le_pow_right (by decide) (by omega)
  simp only [Format.exponentBias]
  omega

/-- What is decoded can be encoded.

**Proof sketch.** One case for each kind of encoded exponent. The highest one is that of infinities and
NaN, and the lowest one that of zeros and of the mantissas at the least exponent. Any other exponent is
between these, and its mantissa has the digit that is not encoded, and so all its digits. -/
theorem fits_unpack (hspec : 1 < spec.exponentBits) (b : BitVec spec.numBits) :
    Fits spec (unpack spec b) := by
  have hpos := exponentBias_pos hspec
  have hpow := two_pow_exponentBits spec
  have hbias := minExponent_eq spec
  have hmantissa := (unpackMantissa b).isLt
  simp only [unpack]
  split
  · split
    · exact .infinity _
    · exact .notANumber
  · next hones =>
    have hlt : (unpackExponent b).toNat + 1 < 2 ^ spec.exponentBits := by
      have hne := mt BitVec.eq_of_toNat_eq hones
      rw [BitVec.neg_one_eq_allOnes, BitVec.toNat_allOnes] at hne
      have := (unpackExponent b).isLt
      omega
    split
    · next hexp =>
      split
      · exact .zero _
      · refine .finite _ _ _ _ ⟨?_, ?_, .inr ?_⟩ ?_
        · simp only [Format.mantissaBits, pow_add, pow_one]
          omega
        · rw [hexp, BitVec.toNat_zero]
          omega
        · rw [hexp, BitVec.toNat_zero]
          omega
        · rw [hexp, BitVec.toNat_zero, maxExponent]
          omega
    · next hexp =>
      have hne := mt BitVec.eq_of_toNat_eq hexp
      rw [BitVec.toNat_zero] at hne
      have happend := toNat_one_append (unpackMantissa b)
      refine .finite _ _ _ _ ⟨?_, ?_, .inl ?_⟩ ?_
      · rw [happend]
        simp only [Format.mantissaBits, pow_add, pow_one]
        omega
      · omega
      · rw [happend]
        omega
      · rw [maxExponent]
        omega

end Ribbon.Binary

/-! ## Single and double precision -/

namespace Ribbon.Binary32

open Float.Model (Format UnpackedFloat)
open Ribbon.Binary (Fits)

/-- What holds at each of the exponents, taken one by one, holds at all of them. -/
@[elab_as_elim]
lemma forall_exponent {P : ℤ → Prop} {e : ℤ} (hmin : -149 ≤ e) (hmax : e ≤ 104)
    (h : ∀ k < 254, P ((k : ℕ) - 149)) : P e := by
  have hk := h (e + 149).toNat (by omega)
  rwa [Int.toNat_of_nonneg (by omega), add_sub_cancel_right] at hk

/-- A decoded number can be encoded. -/
lemma fits_decode (x : Float32) : Fits .binary32 (decode x) :=
  Binary.fits_unpack (by decide) _

/-- A decoded number is encoded as itself. -/
@[simp]
lemma encode_decode (x : Float32) : encode (decode x) = x := by
  have hpack : UInt32.ofBitVec (UnpackedFloat.pack .binary32 (decode x)) = x.toModel.toBits := by
    rw [decode, Float32.Model.unpack, UnpackedFloat.pack_unpack_of_valid x.toModel.valid]
  rcases x with ⟨bits, hvalid⟩
  simp only [encode, Float32.Model.pack, hpack]

/-- An encoded number is decoded as itself. -/
lemma decode_encode {u : UnpackedFloat} (h : Fits .binary32 u) : decode (encode u) = u :=
  Binary.unpack_pack h

end Ribbon.Binary32

namespace Ribbon.Binary

/-- A double that encodes a number is decoded as it. -/
lemma double_unpack_pack {u : Float.Model.UnpackedFloat} (h : Fits .binary64 u) :
    (Float.Model.pack u).unpack = u :=
  unpack_pack h

end Ribbon.Binary
