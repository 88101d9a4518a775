import Membranes.Binary.Decimal

/-!
# Binary numbers of 32 and 64 bits

`Binary32` is the element type of a buffer. It is its bit pattern, so equality tells apart the two
zeros and all the values that are not numbers. Addition, halving and multiplication compute exactly
in whole units and round once. Which bits a result has that is not a number, is left open by the format;
here it is always the one quiet value `Binary32.nan`. That is a choice, and no property of buffers should
rest on it.

`Binary64` serves only as the type of numbers read from a configuration text: they are read in 64 bits
first and then rounded to 32.
-/

namespace Membranes

/-- A number with 32 bits: sign, eight bits of exponent, 23 of fraction. -/
structure Binary32 where
  /-- The bit pattern. -/
  bits : UInt32
deriving DecidableEq, Repr, Inhabited

namespace Binary32

/-- The number with a sign and magnitude bits. -/
def ofMagnitude (negative : Bool) (magnitude : Nat) : Binary32 :=
  ⟨UInt32.ofNat (magnitude + if negative then 0x80000000 else 0)⟩

/-- Positive zero. -/
def zero : Binary32 := ⟨0⟩

/-- The quiet value that is not a number and has no sign. -/
def nan : Binary32 := ⟨0x7FC00000⟩

/-- The sign bit. -/
def isNegative (x : Binary32) : Bool := 0x80000000 ≤ x.bits.toNat

/-- The bits below the sign. -/
def magnitude (x : Binary32) : Nat := x.bits.toNat % 0x80000000

/-- Whether the pattern is not a number. -/
def isNaN (x : Binary32) : Bool := BinaryFormat.single.infinity < x.magnitude

/-- Whether the pattern is an infinity of either sign. -/
def isInfinite (x : Binary32) : Bool := x.magnitude == BinaryFormat.single.infinity

/-- Whether the pattern is a number other than the infinities. -/
def isFinite (x : Binary32) : Bool := x.magnitude < BinaryFormat.single.infinity

/-- Whether two patterns are equal as numbers: the zeros are, and what is not a number never is. -/
def agrees (x y : Binary32) : Bool :=
  !x.isNaN && !y.isNaN && (x == y || x.magnitude == 0 && y.magnitude == 0)

/-- A finite number as a signed number of units. -/
def units (x : Binary32) : Int :=
  if x.isNegative then -(BinaryFormat.single.units x.magnitude : Int)
  else BinaryFormat.single.units x.magnitude

/-- The infinity of a sign. -/
def infinity (negative : Bool) : Binary32 := ofMagnitude negative BinaryFormat.single.infinity

/-- The number nearest to `numerator / denominator` units, with the given sign for the zero and the
rest. -/
def ofRatio (negative : Bool) (numerator denominator : Nat) : Binary32 :=
  ofMagnitude negative (BinaryFormat.single.magnitudeOfRatio numerator denominator)

/-! ### Arithmetic -/

/-- The rounded sum. A sum of exactly zero is positive unless both terms are negative. A sum that is not a
number is `nan`, where the format leaves the bits open: what is said of the bits of sums holds in general
only for sums that are numbers. -/
def add (x y : Binary32) : Binary32 :=
  if x.isNaN || y.isNaN then nan
  else if x.isInfinite then
    if y.isInfinite && x.isNegative != y.isNegative then nan else infinity x.isNegative
  else if y.isInfinite then infinity y.isNegative
  else
    let total := x.units + y.units
    if total = 0 then ofMagnitude (x.isNegative && y.isNegative) 0
    else ofRatio (total < 0) total.natAbs 1

/-- The rounded half. -/
def half (x : Binary32) : Binary32 :=
  if x.isNaN then nan
  else if x.isInfinite then x
  else ofRatio x.isNegative x.units.natAbs 2

/-- The rounded product. -/
def mul (x y : Binary32) : Binary32 :=
  let negative := x.isNegative != y.isNegative
  if x.isNaN || y.isNaN then nan
  else if x.isInfinite || y.isInfinite then
    if x.magnitude = 0 || y.magnitude = 0 then nan else infinity negative
  else ofRatio negative (x.units.natAbs * y.units.natAbs) BinaryFormat.single.unitsInOne

/-- The number `n / 2 ^ 24`, rounded; exact for `n` below `2 ^ 24`. -/
def ofTwentyFourBits (n : Nat) : Binary32 :=
  ofRatio false (n * BinaryFormat.single.unitsInOne) 0x1000000

/-- The nearest number to a whole number. -/
def ofInt (i : Int) : Binary32 :=
  ofRatio (i < 0) (i.natAbs * BinaryFormat.single.unitsInOne) 1

end Binary32

/-- A number with 64 bits: sign, eleven bits of exponent, 52 of fraction. -/
structure Binary64 where
  /-- The bit pattern. -/
  bits : UInt64
deriving DecidableEq, Repr

namespace Binary64

/-- The number with a sign and magnitude bits. -/
def ofMagnitude (negative : Bool) (magnitude : Nat) : Binary64 :=
  ⟨UInt64.ofNat (magnitude + if negative then 0x8000000000000000 else 0)⟩

/-- The sign bit. -/
def isNegative (x : Binary64) : Bool := 0x8000000000000000 ≤ x.bits.toNat

/-- The bits below the sign. -/
def magnitude (x : Binary64) : Nat := x.bits.toNat % 0x8000000000000000

/-- The number nearest to a signed decimal. -/
def ofDecimal (negative : Bool) (d : Decimal) : Binary64 :=
  ofMagnitude negative (BinaryFormat.double.ofDecimal d)

/-- The infinity of a sign. -/
def infinity (negative : Bool) : Binary64 := ofMagnitude negative BinaryFormat.double.infinity

/-- The quiet value of a sign that is not a number. -/
def nan (negative : Bool) : Binary64 := ofMagnitude negative 0x7FF8000000000000

/-- The nearest number with 32 bits. What is not a number keeps its sign only. -/
def toBinary32 (x : Binary64) : Binary32 :=
  if BinaryFormat.double.infinity < x.magnitude then
    Binary32.ofMagnitude x.isNegative Binary32.nan.magnitude
  else if x.magnitude = BinaryFormat.double.infinity then Binary32.infinity x.isNegative
  else
    Binary32.ofRatio x.isNegative
      (BinaryFormat.double.units x.magnitude * BinaryFormat.single.unitsInOne)
      BinaryFormat.double.unitsInOne

end Binary64

end Membranes
