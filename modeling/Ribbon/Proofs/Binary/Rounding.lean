import Ribbon.Proofs.Binary.Packing

/-!
# Rounded operations

The operations on decoded numbers round the exact result to the nearest number of the format.

## Main definitions

* `Ribbon.Binary.Locates` — what the digits behind a mantissa tell of an exact number.
* `Ribbon.Binary.Shows` — the decoded value that an exact number is rounded to.

## Main results

* `Ribbon.Binary.shows_roundWithAccuracy` — a located number is rounded to the nearest one.
* `Ribbon.Binary.shows_round`, `Ribbon.Binary.shows_mul`, `Ribbon.Binary.shows_div` — the operations.
* `Ribbon.Binary.rounded_monotoneOn` — rounding keeps the order.
* `Ribbon.Binary.Shows.eq_of_rounded` — a number of the format is shown as it is.
-/

set_option relaxedAutoImplicit false
set_option autoImplicit false

namespace Ribbon.Binary

open Float.Model (Format UnpackedFloat totalExponent)
open Float.Model.UnpackedFloat

variable {spec : Format}

/-! ## Digits behind a mantissa -/

/-- The mantissa is the whole part of a number, the round bit tells whether at least a half is behind
it, and the sticky bit whether anything else is. -/
structure Locates (em : ExtendedMantissa) (x : ℚ) : Prop where
  le : em.mantissa ≤ x
  lt : x < em.mantissa + 1
  roundBit_iff : em.roundBit = true ↔ 1 / 2 ≤ x - em.mantissa
  stickyBit_iff : em.stickyBit = true ↔ x - em.mantissa ≠ 0 ∧ x - em.mantissa ≠ 1 / 2

/-- The rounded mantissa is the nearest integer. -/
lemma Locates.roundedMantissa_eq {em : ExtendedMantissa} {x : ℚ} (h : Locates em x) :
    (em.roundedMantissa : ℤ) = nearest x := by
  have hfloor : ⌊x⌋ = em.mantissa := Int.floor_eq_iff.2 (by exact_mod_cast And.intro h.le h.lt)
  obtain ⟨m, round, sticky⟩ := em
  obtain ⟨hle, hlt, hround, hsticky⟩ := h
  simp only [nearest, hfloor, ExtendedMantissa.roundedMantissa, Int.cast_natCast]
  cases round <;> cases sticky <;>
    simp only [Bool.false_eq_true, true_iff, false_iff, not_le, not_and_or, not_not] at hround hsticky
  · -- nothing behind the mantissa
    rw [if_pos hround]
    rfl
  · rw [if_pos hround]
    rfl
  · -- exactly a half
    have htie : x - m = 1 / 2 := by
      rcases hsticky with h | h <;> linarith
    rw [if_neg (by linarith), if_neg (by linarith)]
    show ((m + m % 2 : ℕ) : ℤ) = _
    split <;> omega
  · have habove : 1 / 2 < x - m := lt_of_le_of_ne hround (Ne.symm hsticky.2)
    rw [if_neg (by linarith), if_pos habove]
    rfl

/-- One digit less is the number halved.

**Proof sketch.** The last digit of the mantissa becomes the round bit, and what was behind it before
becomes the sticky bit. -/
lemma Locates.shiftRightOne {em : ExtendedMantissa} {x : ℚ} (h : Locates em x) :
    Locates em.shiftRightOne (x / 2) := by
  obtain ⟨m, round, sticky⟩ := em
  obtain ⟨hle, hlt, hround, hsticky⟩ := h
  have hbehind : (round || sticky) = true ↔ x - m ≠ 0 := by
    rw [Bool.or_eq_true, hround, hsticky]
    constructor
    · rintro (h | h)
      · linarith
      · exact h.1
    · intro h
      rcases eq_or_ne (x - m) (1 / 2) with htie | htie
      · exact .inl htie.ge
      · exact .inr ⟨h, htie⟩
  have hsplit : (m : ℚ) = 2 * (m / 2 : ℕ) + (m % 2 : ℕ) := by exact_mod_cast (Nat.div_add_mod m 2).symm
  rcases Nat.mod_two_eq_zero_or_one m with hlast | hlast
  · rw [hlast] at hsplit
    push_cast at hsplit
    constructor <;> simp only [ExtendedMantissa.shiftRightOne, hlast, hbehind]
    · linarith
    · linarith
    · simp only [bne_self_eq_false, Bool.false_eq_true, false_iff]
      linarith
    · refine ⟨fun h => ⟨fun h' => h (by linarith), fun _ => by linarith⟩, fun h h' => h.1 (by linarith)⟩
  · rw [hlast] at hsplit
    push_cast at hsplit
    constructor <;> simp only [ExtendedMantissa.shiftRightOne, hlast, hbehind]
    · linarith
    · linarith
    · simp only [Nat.reduceBNe, true_iff]
      linarith
    · refine ⟨fun h => ⟨fun _ => by linarith, fun h' => h (by linarith)⟩, fun h h' => h.2 (by linarith)⟩

/-- Fewer digits are the number divided by a power of two. -/
lemma Locates.shiftRight {em : ExtendedMantissa} {x : ℚ} (h : Locates em x) (k : ℕ) :
    Locates (em >>> k) (x / 2 ^ k) := by
  show Locates (k.repeat ExtendedMantissa.shiftRightOne em) (x / 2 ^ k)
  induction k with
  | zero => simpa [Nat.repeat] using h
  | succ k ih =>
    rw [pow_succ, ← div_div, Nat.repeat]
    exact ih.shiftRightOne

/-- A mantissa with nothing behind it. -/
lemma locates_exact (m : ℕ) : Locates (.ofMantissaAndAccuracy m .exact) m := by
  constructor <;> simp [ExtendedMantissa.ofMantissaAndAccuracy]

/-- A mantissa with a fraction behind it.

**Proof sketch.** If there is a fraction, it is less than a half, a half, or more, as the double of
its numerator compares with its denominator. -/
lemma locates_accuracyOfFraction (m : ℕ) {num den : ℕ} (h : num < den) :
    Locates (.ofMantissaAndAccuracy m (accuracyOfFraction num den)) (m + num / den) := by
  have hden : (0 : ℚ) < den := by exact_mod_cast Nat.pos_of_ne_zero (by omega)
  have hfraction : (num : ℚ) / den < 1 := (div_lt_one hden).2 (by exact_mod_cast h)
  rw [accuracyOfFraction]
  split
  · next hzero =>
    subst hzero
    simpa using locates_exact m
  · next hne =>
    have hpos : (0 : ℚ) < num / den := div_pos (by exact_mod_cast Nat.pos_of_ne_zero hne) hden
    rcases lt_trichotomy (2 * num) den with hlow | heq | hhigh
    · have hhalf : (num : ℚ) / den < 1 / 2 := by
        rw [div_lt_div_iff₀ hden (by norm_num)]
        exact_mod_cast (by omega : num * 2 < 1 * den)
      rw [Nat.compare_eq_lt.2 hlow]
      constructor <;> simp only [ExtendedMantissa.ofMantissaAndAccuracy, add_sub_cancel_left] <;>
        grind
    · have hhalf : (num : ℚ) / den = 1 / 2 := by
        rw [div_eq_div_iff hden.ne' (by norm_num)]
        exact_mod_cast (by omega : num * 2 = 1 * den)
      rw [Nat.compare_eq_eq.2 heq, hhalf]
      constructor <;> simp only [ExtendedMantissa.ofMantissaAndAccuracy, add_sub_cancel_left] <;>
        grind
    · have hhalf : 1 / 2 < (num : ℚ) / den := by
        rw [div_lt_div_iff₀ (by norm_num) hden]
        exact_mod_cast (by omega : 1 * den < num * 2)
      rw [Nat.compare_eq_gt.2 hhigh]
      constructor <;> simp only [ExtendedMantissa.ofMantissaAndAccuracy, add_sub_cancel_left] <;>
        grind

/-! ## The rounded number -/

/-- The decoded value that a number `x` is rounded to, with the sign `s`. -/
inductive Shows (spec : Format) (s : Sign) (x : ℚ) : UnpackedFloat → Prop
  | zero (eq_zero : rounded spec x = 0) : Shows spec s x (.zero s)
  | finite (m : ℕ) (e : ℤ) (hpos : 0 < m) (canonical : Canonical spec m e)
      (value : (m : ℚ) * 2 ^ e = rounded spec x) : Shows spec s x (.finite s m e hpos)

/-- The target exponent of a located number is its quantum. -/
lemma targetExponent_eq_quantum {m : ℕ} {e : ℤ} {x : ℚ} (hx : 0 < x) (hle : (m : ℚ) ≤ x / 2 ^ e)
    (hlt : x / 2 ^ e < m + 1) (he : e ≤ spec.targetExponent (totalExponent m e)) :
    spec.targetExponent (totalExponent m e) = quantum spec x := by
  have hpow : (0 : ℚ) < 2 ^ e := by positivity
  rw [le_div_iff₀ hpow] at hle
  rw [div_lt_iff₀ hpow] at hlt
  rcases Nat.eq_zero_or_pos m with rfl | hm
  · -- less than one unit: both are the least exponent
    have hmin : e ≤ spec.minExponent := by
      have hbits := spec.hm
      simp only [Format.targetExponent, totalExponent, Format.mantissaBits, Nat.log2_zero] at he
      omega
    have hlog : Int.log 2 x < e := by
      refine (Int.lt_zpow_iff_log_lt (b := 2) (by norm_num) hx).1 ?_
      push_cast at hlt ⊢
      linarith
    simp only [Format.targetExponent, totalExponent, quantum, Format.mantissaBits, Nat.log2_zero]
    omega
  · rw [quantum, log_eq_of_le_of_lt hm hle hlt, totalExponent]
    congr 1
    ring

/-- The shift to the target exponent. -/
lemma Locates.shiftToTargetExponent {m : ℕ} {e : ℤ} {accuracy : Accuracy} {x : ℚ} (hx : 0 < x)
    (h : Locates (.ofMantissaAndAccuracy m accuracy) (x / 2 ^ e))
    (he : e ≤ spec.targetExponent (totalExponent m e)) :
    let (em, f) := UnpackedFloat.shiftToTargetExponent spec m e accuracy
    f = quantum spec x ∧ Locates em (x / 2 ^ f) := by
  have hmantissa : (ExtendedMantissa.ofMantissaAndAccuracy m accuracy).mantissa = m := by
    rcases accuracy with _ | ⟨_ | _ | _⟩ <;> rfl
  have htarget := targetExponent_eq_quantum hx (hmantissa ▸ h.le) (hmantissa ▸ h.lt) he
  rw [htarget] at he
  obtain ⟨k, hk⟩ := Int.eq_ofNat_of_zero_le (Int.sub_nonneg.2 he)
  have hq : quantum spec x = e + k := by omega
  simp only [UnpackedFloat.shiftToTargetExponent, shiftToExponent, htarget, hk, Int.toNat_natCast]
  refine ⟨hq.symm, ?_⟩
  rw [zpow_add₀ (by norm_num), zpow_natCast, ← div_div]
  exact h.shiftRight k

variable (spec) in
/-- A rounded mantissa has at most one digit too many, and only as a power of two. -/
lemma nearest_div_quantum_le {x : ℚ} (hx : 0 < x) :
    nearest (x / 2 ^ quantum spec x) ≤ 2 ^ spec.mantissaBits := by
  have hpow : (0 : ℚ) < 2 ^ quantum spec x := by positivity
  have hlt := lt_mul_two_zpow_of_quantum_le hx (le_refl (quantum spec x))
  rw [← div_lt_iff₀ hpow] at hlt
  have hclose := abs_le.1 (abs_sub_nearest_le (x / 2 ^ quantum spec x))
  by_contra hlarge
  have hcast : (2 : ℚ) ^ spec.mantissaBits + 1 ≤ nearest (x / 2 ^ quantum spec x) := by
    exact_mod_cast not_le.1 hlarge
  linarith [hclose.1]

/-- A rounded mantissa has all digits unless it is at the least exponent. -/
lemma le_nearest_div_quantum {x : ℚ} (hx : 0 < x) (h : quantum spec x ≠ spec.minExponent) :
    2 ^ spec.mantissaBitsWithoutImplicit ≤ nearest (x / 2 ^ quantum spec x) := by
  have hpow : (0 : ℚ) < 2 ^ quantum spec x := by positivity
  have hfull := mul_two_zpow_le_of_lt_quantum hx (lt_of_le_of_ne (minExponent_le_quantum _ x) h.symm)
  rw [← le_div_iff₀ hpow] at hfull
  have hclose := abs_le.1 (abs_sub_nearest_le (x / 2 ^ quantum spec x))
  by_contra hsmall
  have hcast : (nearest (x / 2 ^ quantum spec x) : ℚ) + 1 ≤ 2 ^ spec.mantissaBitsWithoutImplicit := by
    exact_mod_cast not_le.1 hsmall
  linarith [hclose.2]

variable (spec) in
/-- A number that is not negative is not rounded to a negative one. -/
lemma rounded_nonneg {x : ℚ} (hx : 0 ≤ x) : 0 ≤ rounded spec x := by
  have hpow : (0 : ℚ) < 2 ^ quantum spec x := by positivity
  have hnearest : nearest 0 ≤ nearest (x / 2 ^ quantum spec x) :=
    nearest_mono (div_nonneg hx hpow.le)
  rw [show (0 : ℚ) = (0 : ℤ) by norm_num, nearest_intCast] at hnearest
  exact mul_nonneg (by exact_mod_cast hnearest) hpow.le

/-- Of two positive numbers the larger is not rounded to the smaller one.

**Proof sketch.** Numbers with one quantum are rounded to integers in their order. If the quanta differ,
a power of two lies between the two rounded numbers. -/
lemma rounded_mono_of_pos {x y : ℚ} (hx : 0 < x) (h : x ≤ y) : rounded spec x ≤ rounded spec y := by
  have hpow (q : ℤ) : (0 : ℚ) < 2 ^ q := by positivity
  have hquantum : quantum spec x ≤ quantum spec y := quantum_mono hx h
  rcases eq_or_lt_of_le hquantum with heq | hlt
  · rw [rounded, rounded, heq]
    have hnearest := nearest_mono (div_le_div_of_nonneg_right h (hpow (quantum spec y)).le)
    exact mul_le_mul_of_nonneg_right (by exact_mod_cast hnearest) (hpow _).le
  · have hmin := minExponent_le_quantum spec x
    have hmost : (nearest (x / 2 ^ quantum spec x) : ℚ) ≤ 2 ^ spec.mantissaBits := by
      exact_mod_cast nearest_div_quantum_le spec hx
    have hleast : (2 : ℚ) ^ spec.mantissaBitsWithoutImplicit ≤ nearest (y / 2 ^ quantum spec y) := by
      exact_mod_cast le_nearest_div_quantum (hx.trans_le h) (by omega)
    calc rounded spec x
        ≤ 2 ^ spec.mantissaBits * 2 ^ quantum spec x :=
          mul_le_mul_of_nonneg_right hmost (hpow _).le
      _ ≤ 2 ^ spec.mantissaBitsWithoutImplicit * 2 ^ quantum spec y :=
          two_pow_mantissaBits_mul_le spec hlt
      _ ≤ rounded spec y := mul_le_mul_of_nonneg_right hleast (hpow _).le

variable (spec) in
/-- Rounding keeps the order of numbers that are not negative. -/
theorem rounded_monotoneOn : MonotoneOn (rounded spec) (Set.Ici 0) := by
  intro x hx y hy h
  rcases eq_or_lt_of_le (Set.mem_Ici.1 hx) with hzero | hpos
  · rw [← hzero, rounded_zero]
    exact rounded_nonneg spec hy
  · exact rounded_mono_of_pos hpos h

variable (spec) in
/-- What has been rounded is not changed by rounding it again.

**Proof sketch.** The rounded mantissa fits into the format or is the next power of two, and both are
numbers of the format. -/
lemma rounded_rounded {x : ℚ} (hx : 0 ≤ x) : rounded spec (rounded spec x) = rounded spec x := by
  rcases eq_or_lt_of_le hx with rfl | hpos
  · rw [rounded_zero, rounded_zero]
  have hmin := minExponent_le_quantum spec x
  have hmost := nearest_div_quantum_le spec hpos
  obtain ⟨n, hn⟩ : ∃ n : ℕ, nearest (x / 2 ^ quantum spec x) = n := by
    refine Int.eq_ofNat_of_zero_le ?_
    have hnearest := nearest_mono (div_nonneg hx (by positivity) : 0 ≤ x / 2 ^ quantum spec x)
    rwa [show (0 : ℚ) = (0 : ℤ) by norm_num, nearest_intCast] at hnearest
  rw [hn] at hmost
  have hvalue : rounded spec x = n * 2 ^ quantum spec x := by rw [rounded, hn, Int.cast_natCast]
  rw [hvalue]
  rcases lt_or_eq_of_le (by exact_mod_cast hmost : n ≤ 2 ^ spec.mantissaBits) with hlt | rfl
  · exact rounded_of_representable hlt hmin
  · have hpower : ((2 ^ spec.mantissaBits : ℕ) : ℚ) * 2 ^ quantum spec x =
        2 ^ (spec.mantissaBits + quantum spec x) := by
      rw [zpow_add₀ (by norm_num), zpow_natCast]
      push_cast
      rfl
    rw [hpower]
    exact rounded_two_zpow spec (by omega)

/-- A mantissa of the format is not shifted. -/
lemma shiftToTargetExponent_of_lt {n : ℕ} {q : ℤ} (hn : n < 2 ^ spec.mantissaBits)
    (hq : spec.minExponent ≤ q) :
    UnpackedFloat.shiftToTargetExponent spec n q .exact = (⟨n, false, false⟩, q) := by
  have hlog : n.log2 < spec.mantissaBits := by
    rcases Nat.eq_zero_or_pos n with rfl | hpos
    · simp [Format.mantissaBits]
    · exact (Nat.log2_lt hpos.ne').2 hn
  have hstay : (spec.targetExponent (totalExponent n q) - q).toNat = 0 := by
    simp only [Format.targetExponent, totalExponent]
    omega
  simp only [UnpackedFloat.shiftToTargetExponent, shiftToExponent, hstay, Nat.cast_zero, add_zero]
  rfl

/-- The power of two above the mantissas of the format is shifted by one digit. -/
lemma shiftToTargetExponent_two_pow {q : ℤ} (hq : spec.minExponent ≤ q) :
    UnpackedFloat.shiftToTargetExponent spec (2 ^ spec.mantissaBits) q .exact =
      (⟨2 ^ spec.mantissaBitsWithoutImplicit, false, false⟩, q + 1) := by
  have hshift : (spec.targetExponent (totalExponent (2 ^ spec.mantissaBits) q) - q).toNat = 1 := by
    simp only [Format.targetExponent, totalExponent, Nat.log2_two_pow]
    omega
  have hpow : 2 ^ spec.mantissaBits = 2 * 2 ^ spec.mantissaBitsWithoutImplicit := by
    simp [Format.mantissaBits, pow_add]
  simp only [UnpackedFloat.shiftToTargetExponent, shiftToExponent, hshift, Nat.cast_one]
  show (ExtendedMantissa.shiftRightOne (.ofMantissaAndAccuracy (2 ^ spec.mantissaBits) .exact),
    q + 1) = _
  simp [ExtendedMantissa.shiftRightOne, ExtendedMantissa.ofMantissaAndAccuracy, hpow]

/-- **A located number is rounded to the nearest one.**

**Proof sketch.** The first shift takes the number to its quantum, where the nearest multiple has at
most the digits of the mantissa, or is the next power of two. That one is shifted once more. -/
theorem shows_roundWithAccuracy {m : ℕ} {e : ℤ} {accuracy : Accuracy} {x : ℚ} (s : Sign) (hx : 0 < x)
    (h : Locates (.ofMantissaAndAccuracy m accuracy) (x / 2 ^ e))
    (he : e ≤ spec.targetExponent (totalExponent m e)) :
    Shows spec s x (roundWithAccuracy spec s m e accuracy) := by
  have hshift := h.shiftToTargetExponent hx he
  simp only [roundWithAccuracy]
  generalize UnpackedFloat.shiftToTargetExponent spec m e accuracy = first at hshift
  obtain ⟨em, q⟩ := first
  obtain ⟨rfl, hlocated⟩ := hshift
  have hround := hlocated.roundedMantissa_eq
  have hmost := nearest_div_quantum_le spec hx
  have hleast := @le_nearest_div_quantum spec x hx
  have hmin := minExponent_le_quantum spec x
  have hvalue : rounded spec x = (em.roundedMantissa : ℚ) * 2 ^ quantum spec x := by
    rw [rounded, ← hround, Int.cast_natCast]
  rw [← hround] at hmost hleast
  have hone := Nat.two_pow_pos spec.mantissaBitsWithoutImplicit
  generalize em.roundedMantissa = n at *
  generalize quantum spec x = q at *
  rcases lt_or_eq_of_le (by exact_mod_cast hmost : n ≤ 2 ^ spec.mantissaBits) with hlt | rfl
  · rw [shiftToTargetExponent_of_lt hlt hmin]
    dsimp only
    split
    · next hzero => exact .zero (by rw [hvalue, hzero, Nat.cast_zero, zero_mul])
    · exact .finite _ _ _ ⟨hlt, hmin, or_iff_not_imp_right.2 fun h => by exact_mod_cast hleast h⟩
        hvalue.symm
  · rw [shiftToTargetExponent_two_pow hmin]
    dsimp only
    rw [dif_neg hone.ne']
    refine .finite _ _ _ ⟨?_, by omega, .inl le_rfl⟩ ?_
    · exact Nat.pow_lt_pow_right (by decide) (by simp [Format.mantissaBits])
    · rw [hvalue, zpow_add_one₀ (by norm_num), Format.mantissaBits, pow_add]
      push_cast
      ring

/-- What is rounded to a number of the format is shown as that number. -/
theorem Shows.eq_of_rounded {s : Sign} {x : ℚ} {m : ℕ} {e : ℤ} {u : UnpackedFloat}
    (h : Shows spec s x u) (hm : 0 < m) (hcanonical : Canonical spec m e)
    (hx : rounded spec x = m * 2 ^ e) : u = .finite s m e hm := by
  have hpos : (0 : ℚ) < m * 2 ^ e := by positivity
  cases h with
  | zero hzero =>
    rw [hx] at hzero
    exact absurd hzero hpos.ne'
  | finite n f hn hshown hvalue =>
    rw [hx] at hvalue
    obtain ⟨rfl, rfl⟩ := hshown.unique hcanonical hn hvalue
    rfl

/-- Rounding raises the exponent by one at most. -/
lemma Canonical.le_quantum_add_one {m : ℕ} {e : ℤ} {x : ℚ} (h : Canonical spec m e) (hx : 0 < x)
    (hvalue : (m : ℚ) * 2 ^ e = rounded spec x) : e ≤ quantum spec x + 1 := by
  rcases h.full with hfull | rfl
  · have hmost : (nearest (x / 2 ^ quantum spec x) : ℚ) ≤ 2 ^ spec.mantissaBits := by
      exact_mod_cast nearest_div_quantum_le spec hx
    have hle : (2 : ℚ) ^ spec.mantissaBitsWithoutImplicit * 2 ^ e ≤
        2 ^ spec.mantissaBits * 2 ^ quantum spec x := by
      calc (2 : ℚ) ^ spec.mantissaBitsWithoutImplicit * 2 ^ e
          ≤ m * 2 ^ e := by
            gcongr
            exact_mod_cast hfull
        _ = rounded spec x := hvalue
        _ ≤ 2 ^ spec.mantissaBits * 2 ^ quantum spec x := by
            rw [rounded]
            gcongr
    rw [two_pow_mantissaBitsWithoutImplicit_mul, two_pow_mantissaBits_mul] at hle
    have hexp := (zpow_le_zpow_iff_right₀ (by norm_num : (1 : ℚ) < 2)).1 hle
    omega
  · have := minExponent_le_quantum spec x
    omega

/-- A number that is not too large is shown by a decoded value that can be encoded. -/
lemma Shows.fits {s : Sign} {x : ℚ} {u : UnpackedFloat} (hspec : 1 < spec.exponentBits)
    (h : Shows spec s x u) (hx : 0 < x)
    (hlt : x < 2 ^ (maxExponent spec + spec.mantissaBitsWithoutImplicit)) : Fits spec u := by
  have hbias := exponentBias_pos hspec
  have hmin := minExponent_eq spec
  cases h with
  | zero => exact .zero s
  | finite m e hpos hcanonical hvalue =>
    have hquantum : quantum spec x ≤ maxExponent spec - 1 := by
      refine quantum_le hx ?_ ?_
      · simp only [maxExponent]
        omega
      · have hexp : maxExponent spec - 1 + spec.mantissaBits =
            maxExponent spec + spec.mantissaBitsWithoutImplicit := by
          simp only [Format.mantissaBits]
          push_cast
          ring
        rwa [two_pow_mantissaBits_mul, hexp]
    have hraised := hcanonical.le_quantum_add_one hx hvalue
    exact .finite s m e hpos hcanonical (by omega)

/-! ## Operations -/

/-- An exact number is rounded to the nearest one, if its digits start where those of the result may
end. -/
lemma shows_roundWithAccuracy_exact {m : ℕ} {e : ℤ} (s : Sign) (hm : 0 < m)
    (he : e ≤ spec.targetExponent (totalExponent m e)) :
    Shows spec s (m * 2 ^ e) (roundWithAccuracy spec s m e .exact) := by
  have hpow : (2 : ℚ) ^ e ≠ 0 := by positivity
  refine shows_roundWithAccuracy s (by positivity) ?_ he
  rw [mul_div_cancel_right₀ _ hpow]
  exact locates_exact m

/-- The digits of a number with at least the digits of a mantissa start early enough. -/
lemma le_targetExponent_of_full {m : ℕ} {e : ℤ} (h : 2 ^ spec.mantissaBitsWithoutImplicit ≤ m) :
    e ≤ spec.targetExponent (totalExponent m e) := by
  have hne : m ≠ 0 := (lt_of_lt_of_le (Nat.two_pow_pos _) h).ne'
  have hlog := (Nat.le_log2 hne).2 h
  simp only [Format.targetExponent, totalExponent, Format.mantissaBits]
  omega

/-- A shifted number has that many digits more. -/
lemma log2_mul_two_pow {m : ℕ} (hm : 0 < m) (k : ℕ) : (m * 2 ^ k).log2 = m.log2 + k := by
  rw [Nat.log2_eq_iff (by positivity), pow_add, add_right_comm, pow_add]
  exact ⟨Nat.mul_le_mul_right _ (Nat.log2_self_le hm.ne'),
    Nat.mul_lt_mul_of_pos_right Nat.lt_log2_self (Nat.two_pow_pos k)⟩

variable (spec) in
/-- Rounding, whatever the exponent. -/
theorem shows_round {m : ℕ} (e : ℤ) (s : Sign) (hm : 0 < m) :
    Shows spec s (m * 2 ^ e) (UnpackedFloat.round spec s m e) := by
  simp only [UnpackedFloat.round, decreaseExponent, Nat.shiftLeft_eq]
  generalize hk : (e - spec.targetExponent (totalExponent m e)).toNat = k
  have hvalue : (m : ℚ) * 2 ^ e = (m * 2 ^ k : ℕ) * 2 ^ (e - k) := by
    rw [zpow_sub₀ (by norm_num), zpow_natCast]
    push_cast
    field_simp
  rw [hvalue]
  refine shows_roundWithAccuracy_exact s (by positivity) ?_
  have htotal : totalExponent (m * 2 ^ k) (e - k) = totalExponent m e := by
    simp only [totalExponent, log2_mul_two_pow hm]
    push_cast
    ring
  rw [htotal]
  omega

variable (spec) in
/-- The product of decoded numbers, one of which has all its digits. -/
theorem shows_mul {s t : Sign} {m n : ℕ} {e f : ℤ} (hm : 0 < m) (hn : 0 < n)
    (h : 2 ^ spec.mantissaBitsWithoutImplicit ≤ m * n) :
    Shows spec (s * t) ((m * 2 ^ e) * (n * 2 ^ f))
      (UnpackedFloat.mul spec (.finite s m e hm) (.finite t n f hn)) := by
  rw [show (m * 2 ^ e : ℚ) * (n * 2 ^ f) = (m * n : ℕ) * 2 ^ (e + f) by
    rw [zpow_add₀ (by norm_num)]
    push_cast
    ring]
  exact shows_roundWithAccuracy_exact _ (by positivity) (le_targetExponent_of_full h)

/-- A quotient, down to the exponent `g`: the digits are shifted until they reach it, and divided. -/
lemma quotient_eq {m n k : ℕ} {e f g : ℤ} (hn : 0 < n) (hk : e - f - g = k) :
    (m * 2 ^ e : ℚ) / (n * 2 ^ f) / 2 ^ g =
      (m * 2 ^ k / n : ℕ) + ((m * 2 ^ k % n : ℕ) : ℚ) / n := by
  have hsplit : (m * 2 ^ k : ℚ) = n * (m * 2 ^ k / n : ℕ) + (m * 2 ^ k % n : ℕ) := by
    exact_mod_cast (Nat.div_add_mod (m * 2 ^ k) n).symm
  have hexp : (2 : ℚ) ^ e = 2 ^ k * (2 ^ f * 2 ^ g) := by
    rw [← zpow_natCast, ← zpow_add₀ (by norm_num), ← zpow_add₀ (by norm_num)]
    congr 1
    omega
  rw [hexp, ← mul_assoc, hsplit]
  field_simp

/-- The quotient by a number with so many fewer digits has all the digits of a mantissa. -/
lemma full_div_of_log2_le {m n : ℕ} (hm : 0 < m) (hn : 0 < n)
    (h : n.log2 + spec.mantissaBits ≤ m.log2) :
    2 ^ spec.mantissaBitsWithoutImplicit ≤ m / n := by
  refine (Nat.le_div_iff_mul_le hn).2 ?_
  calc 2 ^ spec.mantissaBitsWithoutImplicit * n
      ≤ 2 ^ spec.mantissaBitsWithoutImplicit * 2 ^ (n.log2 + 1) :=
        Nat.mul_le_mul_left _ Nat.lt_log2_self.le
    _ = 2 ^ (n.log2 + spec.mantissaBits) := by
        rw [← pow_add, Format.mantissaBits]
        ring
    _ ≤ 2 ^ m.log2 := Nat.pow_le_pow_right (by decide) h
    _ ≤ m := Nat.log2_self_le hm.ne'

variable (spec) in
/-- The quotient of decoded numbers.

**Proof sketch.** The digits of the dividend are shifted, so that the whole part of the quotient begins
where the result may end: at the least exponent, or with all the digits of a mantissa. The remainder
tells what is behind it. -/
theorem shows_div {s t : Sign} {m n : ℕ} {e f : ℤ} (hm : 0 < m) (hn : 0 < n) :
    Shows spec (s / t) ((m * 2 ^ e) / (n * 2 ^ f))
      (UnpackedFloat.div spec (.finite s m e hm) (.finite t n f hn)) := by
  simp only [UnpackedFloat.div, divCore]
  generalize hg : min (e - f) (spec.targetExponent (totalExponent m e - totalExponent n f)) = g
  obtain ⟨k, hk⟩ := Int.eq_ofNat_of_zero_le (show 0 ≤ e - f - g by omega)
  rw [hk, Int.toNat_natCast, Nat.shiftLeft_eq]
  refine shows_roundWithAccuracy _ (by positivity) ?_ ?_
  · rw [quotient_eq hn hk]
    exact locates_accuracyOfFraction _ (Nat.mod_lt (m * 2 ^ k) hn)
  · rcases le_or_gt g spec.minExponent with hmin | hmin
    · exact hmin.trans (le_max_right _ _)
    · refine le_targetExponent_of_full (full_div_of_log2_le (by positivity) hn ?_)
      rw [log2_mul_two_pow hm]
      simp only [Format.targetExponent, totalExponent] at hg
      omega

variable (spec) in
/-- A positive count. -/
lemma shows_ofNat {n : ℕ} (hn : 0 < n) :
    Shows spec .positive n (UnpackedFloat.ofNat spec n) := by
  have hcompare : compare (n : ℤ) 0 = .gt := Int.compare_eq_gt.2 (by exact_mod_cast hn)
  simp only [UnpackedFloat.ofNat, UnpackedFloat.ofInt, UnpackedFloat.normalize, hcompare,
    Int.toNat_natCast]
  simpa using shows_round spec 0 .positive hn

end Ribbon.Binary
