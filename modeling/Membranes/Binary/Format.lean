/-!
# Binary floating-point formats

A format is a number of fraction bits and a number of exponent bits. Its finite values are whole
multiples of one unit, the least positive value, so a magnitude is decoded into a natural number of
units (`units`) and every operation is exact integer arithmetic followed by one rounding
(`magnitudeOfRatio`): to nearest, a half to the even neighbour.

The magnitude bits of a value, exponent above fraction, order the values of one sign, and rounding up
past the last fraction of an exponent carries into the next exponent by plain addition.
-/

namespace Membranes

/-- A binary interchange format. -/
structure BinaryFormat where
  /-- Stored bits below the leading one. -/
  fractionBits : Nat
  /-- Bits of the biased exponent. -/
  exponentBits : Nat

namespace BinaryFormat

/-- The format with 32 bits. -/
def single : BinaryFormat := ⟨23, 8⟩

/-- The format with 64 bits. -/
def double : BinaryFormat := ⟨52, 11⟩

variable (format : BinaryFormat)

/-- The number of fractions under one exponent. -/
def fractions : Nat := Nat.pow 2 format.fractionBits

/-- The exponent `u` for which the least positive value is `2 ^ (-u)`. -/
def unitExponent : Nat := Nat.pow 2 (format.exponentBits - 1) - 2 + format.fractionBits

/-- The number of units in one. -/
def unitsInOne : Nat := Nat.pow 2 format.unitExponent

/-- The magnitude bits of infinity, one above those of the greatest finite value. -/
def infinity : Nat := (Nat.pow 2 format.exponentBits - 1) * format.fractions

/-- The number of units that magnitude bits stand for. Under exponent zero there is no leading one. -/
def units (magnitude : Nat) : Nat :=
  let exponent := magnitude / format.fractions
  let fraction := magnitude % format.fractions
  if exponent = 0 then fraction else (format.fractions + fraction) * Nat.pow 2 (exponent - 1)

/-- The whole number nearest to `numerator / denominator`, a half going to the even neighbour. -/
def nearest (numerator denominator : Nat) : Nat :=
  let quotient := numerator / denominator
  let twice := 2 * (numerator % denominator)
  if twice < denominator ∨ (twice = denominator ∧ quotient % 2 = 0) then quotient else quotient + 1

/-- The magnitude bits nearest to `numerator / denominator` units; what is too large is infinity. -/
def magnitudeOfRatio (numerator denominator : Nat) : Nat :=
  let shift := (numerator / denominator).log2 - format.fractionBits
  min (shift * format.fractions + nearest numerator (denominator * Nat.pow 2 shift)) format.infinity

end BinaryFormat

end Membranes
