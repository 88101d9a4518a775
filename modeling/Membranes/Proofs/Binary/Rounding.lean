import Mathlib.Algebra.Order.Ring.Nat
import Membranes.Binary.Basic

/-!
# Rounding to a binary format

* `magnitudeOfRatio_mul_right`: rounding sees the ratio alone, not the numbers that make it up.
* `magnitudeOfRatio_units`: what is a magnitude already is rounded to itself.
* `exists_units_of_lt`: every whole number with no more digits than a significand, shifted up, is a
  magnitude.
* `Binary32.ofMagnitude_magnitude`: a number with 32 bits is its sign and its magnitude.
* `Binary32.units_ofTwentyFourBits`: a fraction of 24 bits is not rounded.
-/

namespace Membranes

namespace BinaryFormat

variable {format : BinaryFormat} {denominator factor magnitude : ℕ}

/-! ### Whole numbers -/

theorem nearest_mul_right (hfactor : 0 < factor) (numerator denominator : ℕ) :
    nearest (numerator * factor) (denominator * factor) = nearest numerator denominator := by
  have htwice : 2 * (numerator % denominator * factor) = 2 * (numerator % denominator) * factor :=
    (Nat.mul_assoc _ _ _).symm
  unfold nearest
  dsimp only
  rw [Nat.mul_div_mul_right _ _ hfactor, Nat.mul_mod_mul_right, htwice]
  simp only [Nat.mul_lt_mul_right hfactor, Nat.mul_left_inj hfactor.ne']

theorem nearest_mul_self (hdenominator : 0 < denominator) (n : ℕ) :
    nearest (n * denominator) denominator = n := by
  unfold nearest
  dsimp only
  rw [Nat.mul_mod_left, if_pos (Or.inl hdenominator), Nat.mul_div_cancel _ hdenominator]

/-! ### Magnitudes -/

theorem fractions_eq (format : BinaryFormat) : format.fractions = 2 ^ format.fractionBits := rfl

theorem fractions_pos (format : BinaryFormat) : 0 < format.fractions := Nat.two_pow_pos _

theorem magnitudeOfRatio_mul_right (hfactor : 0 < factor) (numerator denominator : ℕ) :
    format.magnitudeOfRatio (numerator * factor) (denominator * factor) =
      format.magnitudeOfRatio numerator denominator := by
  unfold magnitudeOfRatio
  dsimp only
  rw [Nat.mul_div_mul_right _ _ hfactor, Nat.mul_right_comm denominator, nearest_mul_right hfactor]

/-- The number of units is a significand below two exponents of fractions, shifted by an exponent. -/
theorem exists_units_eq (format : BinaryFormat) (magnitude : ℕ) : ∃ significand shift,
    format.units magnitude = significand * 2 ^ shift ∧
      magnitude = shift * format.fractions + significand ∧ significand < 2 * format.fractions ∧
        (shift = 0 ∨ format.fractions ≤ significand) := by
  have hsplit := Nat.div_add_mod' magnitude format.fractions
  have hfraction := Nat.mod_lt magnitude format.fractions_pos
  unfold units
  dsimp only
  by_cases hexponent : magnitude / format.fractions = 0
  · rw [if_pos hexponent]
    refine ⟨magnitude % format.fractions, 0, (Nat.mul_one _).symm, ?_, by omega, Or.inl rfl⟩
    rw [hexponent] at hsplit
    exact hsplit.symm
  · rw [if_neg hexponent]
    refine ⟨_, magnitude / format.fractions - 1, rfl, ?_, by omega, Or.inr (Nat.le_add_right _ _)⟩
    -- The leading one is what carries into the exponent.
    obtain ⟨shift, hshift⟩ := Nat.exists_eq_succ_of_ne_zero hexponent
    rw [hshift, Nat.succ_mul] at hsplit
    rw [hshift, Nat.succ_sub_one]
    omega

/-- The exponent is read off the leading digit again. -/
theorem log2_units_sub {significand shift : ℕ} (hlt : significand < 2 * format.fractions)
    (hnormal : shift = 0 ∨ format.fractions ≤ significand) :
    (significand * 2 ^ shift).log2 - format.fractionBits = shift := by
  have hbound : significand < 2 ^ (format.fractionBits + 1) := by
    rwa [Nat.pow_succ', ← fractions_eq]
  obtain rfl | hle := hnormal
  · rw [Nat.pow_zero, Nat.mul_one]
    by_cases hzero : significand = 0
    · rw [hzero]
      exact Nat.zero_sub _
    · have hlog := (Nat.log2_lt hzero).mpr hbound
      omega
  · have hfractions := format.fractions_pos
    have hpos : significand * 2 ^ shift ≠ 0 :=
      Nat.mul_ne_zero (by omega) (Nat.two_pow_pos _).ne'
    have hlog : (significand * 2 ^ shift).log2 = format.fractionBits + shift := by
      rw [Nat.log2_eq_iff hpos, Nat.pow_add, Nat.add_right_comm, Nat.pow_add _ (_ + 1)]
      exact ⟨Nat.mul_le_mul_right _ hle, Nat.mul_lt_mul_of_pos_right hbound (Nat.two_pow_pos _)⟩
    omega

/-- **What is a magnitude already is rounded to itself.** -/
theorem magnitudeOfRatio_units (hmagnitude : magnitude ≤ format.infinity) (hfactor : 0 < factor) :
    format.magnitudeOfRatio (format.units magnitude * factor) factor = magnitude := by
  obtain ⟨significand, shift, hunits, heq, hlt, hnormal⟩ := format.exists_units_eq magnitude
  have hnearest : nearest (significand * 2 ^ shift * factor) (factor * 2 ^ shift) = significand := by
    rw [Nat.mul_assoc, Nat.mul_comm (2 ^ shift)]
    exact nearest_mul_self (Nat.mul_pos hfactor (Nat.two_pow_pos _)) significand
  unfold magnitudeOfRatio
  dsimp only
  rw [hunits, Nat.mul_div_cancel _ hfactor, log2_units_sub hlt hnormal, Nat.pow_eq, hnearest, ← heq]
  exact Nat.min_eq_left hmagnitude

/-- A significand that has its leading one stands, under an exponent, for itself shifted. -/
theorem units_add_mul_fractions {significand : ℕ} (hle : format.fractions ≤ significand)
    (hlt : significand < 2 * format.fractions) (shift : ℕ) :
    format.units (shift * format.fractions + significand) = significand * 2 ^ shift := by
  obtain ⟨fraction, rfl⟩ := Nat.exists_eq_add_of_le hle
  have hfraction : fraction < format.fractions := by omega
  have hcarry : shift * format.fractions + (format.fractions + fraction) =
      fraction + (shift + 1) * format.fractions := by
    rw [Nat.succ_mul]
    omega
  unfold units
  dsimp only
  rw [hcarry, Nat.add_mul_div_right _ _ format.fractions_pos, Nat.add_mul_mod_self_right,
    Nat.div_eq_of_lt hfraction, Nat.mod_eq_of_lt hfraction, Nat.zero_add, if_neg (Nat.succ_ne_zero _)]
  rfl

/-- **Every whole number with no more digits than a significand, shifted up, is a magnitude.** -/
theorem exists_units_of_lt {n : ℕ} (hlt : n < 2 * format.fractions) (shift : ℕ) :
    ∃ magnitude, format.units magnitude = n * 2 ^ shift ∧
      magnitude < (shift + 2) * format.fractions := by
  induction shift generalizing n with
  | zero =>
    refine ⟨n, ?_, by omega⟩
    by_cases hle : format.fractions ≤ n
    · have hunits := units_add_mul_fractions hle hlt 0
      rwa [Nat.zero_mul, Nat.zero_add] at hunits
    · unfold units
      dsimp only
      rw [Nat.div_eq_of_lt (by omega), if_pos rfl, Nat.mod_eq_of_lt (by omega), Nat.pow_zero, Nat.mul_one]
  | succ shift ih =>
    by_cases hle : format.fractions ≤ n
    · refine ⟨_, units_add_mul_fractions hle hlt (shift + 1), ?_⟩
      rw [Nat.add_mul (shift + 1)]
      omega
    · -- A significand without its leading one makes room for a shift.
      obtain ⟨magnitude, hunits, hbound⟩ := ih (n := n * 2) (by omega)
      refine ⟨magnitude, ?_, hbound.trans_le (Nat.mul_le_mul_right _ (Nat.le_succ _))⟩
      rw [hunits, Nat.mul_assoc, Nat.pow_succ']

end BinaryFormat

/-! ### Numbers with 32 bits -/

namespace Binary32

theorem toNat_bits (x : Binary32) :
    x.bits.toNat = x.magnitude + if x.isNegative then 0x80000000 else 0 := by
  have hlt : x.bits.toNat < 0x100000000 := x.bits.toNat_lt
  unfold magnitude isNegative
  simp only [decide_eq_true_eq]
  split
  · omega
  · omega

/-- A number is its sign and its magnitude. -/
theorem ofMagnitude_magnitude (x : Binary32) : ofMagnitude x.isNegative x.magnitude = x := by
  unfold ofMagnitude
  rw [← toNat_bits, UInt32.ofNat_toNat]

theorem toNat_bits_ofMagnitude {magnitude : ℕ} (h : magnitude < 0x80000000) :
    (ofMagnitude false magnitude).bits.toNat = magnitude :=
  UInt32.toNat_ofNat_of_lt' (h.trans (by decide))

theorem units_ofMagnitude {magnitude : ℕ} (h : magnitude < 0x80000000) :
    (ofMagnitude false magnitude).units = BinaryFormat.single.units magnitude := by
  have hpositive : (ofMagnitude false magnitude).isNegative = false := by
    unfold isNegative
    rw [toNat_bits_ofMagnitude h]
    exact decide_eq_false h.not_ge
  have hmagnitude : (ofMagnitude false magnitude).magnitude = magnitude := by
    unfold Binary32.magnitude
    rw [toNat_bits_ofMagnitude h, Nat.mod_eq_of_lt h]
  unfold units
  rw [hpositive, hmagnitude]
  rfl

/-- **A fraction of 24 bits is not rounded**: it stands for `n / 2 ^ 24`. -/
theorem units_ofTwentyFourBits {n : ℕ} (h : n < 2 ^ 24) :
    (ofTwentyFourBits n).units * 2 ^ 24 = n * BinaryFormat.single.unitsInOne := by
  have hone : BinaryFormat.single.unitsInOne = 2 ^ 125 * 2 ^ 24 := rfl
  have hdigits : n < 2 * BinaryFormat.single.fractions := h
  obtain ⟨magnitude, hunits, hbound⟩ := BinaryFormat.exists_units_of_lt hdigits 125
  have hfinite : magnitude ≤ BinaryFormat.single.infinity :=
    hbound.le.trans (by decide)
  have hrounded : ofTwentyFourBits n = ofMagnitude false magnitude := by
    unfold ofTwentyFourBits ofRatio
    rw [hone, ← Nat.mul_assoc, ← hunits]
    exact congrArg _ (BinaryFormat.magnitudeOfRatio_units hfinite (by decide))
  rw [hrounded, units_ofMagnitude (hbound.trans_le (by decide)), hunits, hone]
  push_cast
  exact Int.mul_assoc _ _ _

end Binary32

end Membranes
