import Membranes.Binary.Decimal
import Membranes.Proofs.Binary.Rounding

/-!
# Decimals and what they are rounded to

* `ofDecimal_mul_ten`: a zero at the end of the digits may be moved into the exponent.
* `ofDecimal_units`: the exact decimal of a magnitude is rounded to it.
* `ofDecimal_shortest`: so is the shortest one, be it found or not.
-/

namespace Membranes

namespace Decimal

variable {n : ℕ}

theorem places_mul_ten (hn : 0 < n) : places (n * 10) = places n + 1 := by
  have hdigits := Nat.toDigits_append_toDigits (b := 10) (by decide) hn (d := 0) (by decide)
  rw [Nat.add_zero, Nat.toDigits_zero] at hdigits
  rw [places, Nat.mul_comm, ← hdigits, List.length_append]
  rfl

theorem leadingExponent_mul_ten (hn : 0 < n) (e : ℤ) :
    (⟨n * 10, e⟩ : Decimal).leadingExponent = (⟨n, e + 1⟩ : Decimal).leadingExponent := by
  show e + (places (n * 10) : ℤ) - 1 = e + 1 + (places n : ℤ) - 1
  rw [places_mul_ten hn]
  omega

end Decimal

namespace BinaryFormat

variable {format : BinaryFormat} {tie : TieRule} {magnitude : ℕ} {exponent : ℤ} {d : Decimal}

/-! ### Zeros at the end -/

theorem ofDecimal_mul_ten (n : ℕ) (e : ℤ) :
    format.ofDecimal ⟨n * 10, e⟩ = format.ofDecimal ⟨n, e + 1⟩ := by
  obtain rfl | hn := Nat.eq_zero_or_pos n
  · rfl
  have hratio : format.magnitudeOfRatio (n * 10 * 10 ^ e.toNat * format.unitsInOne) (10 ^ (-e).toNat) =
      format.magnitudeOfRatio (n * 10 ^ (e + 1).toNat * format.unitsInOne)
        (10 ^ (-(e + 1)).toNat) := by
    by_cases he : 0 ≤ e
    · have hup : (e + 1).toNat = e.toNat + 1 := by omega
      have hdown : (-e).toNat = (-(e + 1)).toNat := by omega
      rw [hup, hdown, Nat.pow_succ', ← Nat.mul_assoc n]
    · have hup : (e + 1).toNat = e.toNat := by omega
      have hdown : (-e).toNat = (-(e + 1)).toNat + 1 := by omega
      rw [hup, hdown, Nat.pow_succ, Nat.mul_right_comm n, Nat.mul_right_comm (n * _)]
      exact magnitudeOfRatio_mul_right (by decide) _ _
  unfold ofDecimal
  rw [Decimal.leadingExponent_mul_ten hn]
  simp only [Nat.pow_eq, hratio, Nat.mul_eq_zero, Nat.reduceEqDiff, or_false]

theorem ofDecimal_mul_ten_pow (n k : ℕ) :
    format.ofDecimal ⟨n * 10 ^ k, 0⟩ = format.ofDecimal ⟨n, k⟩ := by
  suffices h : ∀ e : ℤ, format.ofDecimal ⟨n * 10 ^ k, e⟩ = format.ofDecimal ⟨n, e + k⟩ by
    rw [h, Int.zero_add]
  induction k with
  | zero =>
    intro e
    rw [Nat.pow_zero, Nat.mul_one]
    exact congrArg (fun e => format.ofDecimal ⟨n, e⟩) (Int.add_zero e).symm
  | succ k ih =>
    intro e
    rw [Nat.pow_succ, ← Nat.mul_assoc, ofDecimal_mul_ten, ih, Int.natCast_add_one, Int.add_assoc,
      Int.add_comm 1]

theorem ofDecimal_strip (fuel : ℕ) (d : Decimal) :
    format.ofDecimal (d.strip fuel) = format.ofDecimal d := by
  induction fuel generalizing d with
  | zero => rfl
  | succ fuel ih =>
    unfold Decimal.strip
    split
    · rename_i hdigits
      have hsplit : d.digits / 10 * 10 = d.digits := by omega
      rw [ih, ← ofDecimal_mul_ten, hsplit]
    · rfl

/-! ### The decimals of a magnitude -/

/-- What is found on a grid is rounded to the magnitude. -/
theorem ofDecimal_of_decimalOn? (h : format.decimalOn? tie magnitude exponent = some d) :
    format.ofDecimal d = magnitude := by
  unfold decimalOn? at h
  dsimp only at h
  cases hbelow : format.ofDecimal (format.decimalBelow magnitude exponent) == magnitude with
  | false =>
    cases habove : format.ofDecimal
        ⟨(format.decimalBelow magnitude exponent).digits + 1, exponent⟩ == magnitude with
    | false =>
      rw [hbelow, habove] at h
      exact nomatch h
    | true =>
      rw [hbelow, habove] at h
      obtain rfl := Option.some.inj h
      exact beq_iff_eq.mp habove
  | true =>
    cases habove : format.ofDecimal
        ⟨(format.decimalBelow magnitude exponent).digits + 1, exponent⟩ == magnitude with
    | false =>
      rw [hbelow, habove] at h
      obtain rfl := Option.some.inj h
      exact beq_iff_eq.mp hbelow
    | true =>
      -- Either neighbour is rounded to the magnitude, so it does not matter which one is taken.
      rw [hbelow, habove] at h
      dsimp only at h
      split at h
      · exact Option.some.inj h ▸ beq_iff_eq.mp hbelow
      · exact Option.some.inj h ▸ beq_iff_eq.mp habove
      · exact Option.some.inj h ▸ beq_iff_eq.mp habove
      · obtain rfl := Option.some.inj h
        split
        · exact beq_iff_eq.mp hbelow
        · exact beq_iff_eq.mp habove

/-- A finite number of the format with 32 bits is below `2 ^ 128`. -/
theorem units_single_lt (h : magnitude < single.infinity) :
    single.units magnitude < 2 ^ 128 * single.unitsInOne := by
  obtain ⟨significand, shift, hunits, heq, hlt, hnormal⟩ := single.exists_units_eq magnitude
  have hfractions : single.fractions = 2 ^ 23 := rfl
  have hinfinity : single.infinity = 255 * 2 ^ 23 := rfl
  rw [hfractions] at heq hlt hnormal
  have hshift : shift ≤ 253 := by omega
  calc single.units magnitude = significand * 2 ^ shift := hunits
    _ < 2 ^ 24 * 2 ^ shift := Nat.mul_lt_mul_of_pos_right (by omega) (Nat.two_pow_pos _)
    _ ≤ 2 ^ 24 * 2 ^ 253 := Nat.mul_le_mul_left _ (Nat.pow_le_pow_right (by decide) hshift)
    _ = 2 ^ 24 * (2 ^ 104 * 2 ^ 149) := congrArg (2 ^ 24 * ·) (Nat.pow_add 2 104 149)
    _ = 2 ^ 128 * 2 ^ 149 := (Nat.mul_assoc _ _ _).symm

theorem units_pos (hmagnitude : magnitude ≠ 0) : 0 < format.units magnitude := by
  obtain ⟨significand, shift, hunits, heq, -, hnormal⟩ := format.exists_units_eq magnitude
  have hfractions := format.fractions_pos
  rw [hunits]
  refine Nat.mul_pos (Nat.pos_of_ne_zero ?_) (Nat.two_pow_pos _)
  rintro rfl
  obtain rfl | hle := hnormal
  · exact hmagnitude (by rw [heq, Nat.zero_mul])
  · omega

/-- Within the range of a format it is the ratio that is rounded. -/
theorem ofDecimal_eq_magnitudeOfRatio {k n : ℕ} {e : ℤ} (hn : 0 < n) (hlt : n < 10 ^ (k + 1))
    (hhigh : e + k ≤ format.unitExponent) (hlow : -(format.unitExponent : ℤ) - 2 ≤ e) :
    format.ofDecimal ⟨n, e⟩ =
      format.magnitudeOfRatio (n * 10 ^ e.toNat * format.unitsInOne) (10 ^ (-e).toNat) := by
  have hplaces : Decimal.places n ≤ k + 1 :=
    (Nat.length_toDigits_le_iff (by decide) (Nat.succ_pos k)).mpr hlt
  have hplace : 0 < Decimal.places n := Nat.length_toDigits_pos
  have hleading : (⟨n, e⟩ : Decimal).leadingExponent = e + (Decimal.places n : ℤ) - 1 := rfl
  unfold ofDecimal
  rw [if_neg hn.ne', if_neg (by omega), if_neg (by omega)]
  rfl

/-- The exact decimal of a magnitude is rounded to it. -/
theorem ofDecimal_units (h : magnitude < single.infinity) (hmagnitude : magnitude ≠ 0) :
    single.ofDecimal ⟨single.units magnitude * 5 ^ 149, -149⟩ = magnitude := by
  have hpos : 0 < single.units magnitude * 5 ^ 149 :=
    Nat.mul_pos (units_pos hmagnitude) (Nat.pow_pos (by decide))
  have hten : single.unitsInOne * 5 ^ 149 = 10 ^ 149 := (Nat.mul_pow 2 5 149).symm
  have hlt : single.units magnitude * 5 ^ 149 < 10 ^ (187 + 1) := by
    calc single.units magnitude * 5 ^ 149 < 2 ^ 128 * single.unitsInOne * 5 ^ 149 :=
          Nat.mul_lt_mul_of_pos_right (units_single_lt h) (Nat.pow_pos (by decide))
      _ = 2 ^ 128 * 10 ^ 149 := by rw [Nat.mul_assoc, hten]
      _ ≤ 10 ^ 39 * 10 ^ 149 := Nat.mul_le_mul_right _ (by decide)
      _ = 10 ^ (187 + 1) := (Nat.pow_add 10 39 149).symm
  have hratio : single.units magnitude * 5 ^ 149 * 10 ^ (-149 : ℤ).toNat * single.unitsInOne =
      single.units magnitude * 10 ^ 149 := by
    rw [← hten, Nat.mul_comm single.unitsInOne, ← Nat.mul_assoc]
    exact congrArg (· * single.unitsInOne) (Nat.mul_one _)
  rw [ofDecimal_eq_magnitudeOfRatio hpos hlt (by decide) (by decide), hratio]
  exact magnitudeOfRatio_units h.le (Nat.pow_pos (by decide))

/-- **The shortest decimal of a magnitude is rounded to it.** -/
theorem ofDecimal_shortest (tie : TieRule) (h : magnitude < single.infinity) :
    single.ofDecimal (single.shortest tie magnitude) = magnitude := by
  unfold shortest
  by_cases hmagnitude : magnitude = 0
  · rw [if_pos hmagnitude, hmagnitude]
    rfl
  · rw [if_neg hmagnitude]
    dsimp only
    split
    · rename_i d hfound
      obtain ⟨n, -, hgrid⟩ := List.exists_of_findSome?_eq_some hfound
      rw [ofDecimal_strip]
      exact ofDecimal_of_decimalOn? hgrid
    · exact ofDecimal_units h hmagnitude

end BinaryFormat

end Membranes
