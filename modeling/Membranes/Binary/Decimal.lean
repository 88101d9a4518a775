import Membranes.Binary.Format

/-!
# Decimals and binary magnitudes

A decimal is `digits * 10 ^ exponent`. `BinaryFormat.ofDecimal` rounds one to the nearest magnitude of
a format, and `BinaryFormat.shortest` goes the other way: among the decimals with the fewest digits
that round to a magnitude it takes the one nearest to it.
-/

namespace Membranes

/-- A non-negative decimal number, `digits * 10 ^ exponent`. -/
structure Decimal where
  /-- The digits, read as a whole number. -/
  digits : Nat
  /-- The power of ten they are scaled by. -/
  exponent : Int
deriving DecidableEq, Repr

namespace Decimal

/-- How many decimal digits a number has; zero has one. -/
def places (n : Nat) : Nat := (Nat.toDigits 10 n).length

/-- The decimal exponent of the leading digit. -/
def leadingExponent (d : Decimal) : Int := d.exponent + places d.digits - 1

/-- Moves the zeros at the end of the digits into the exponent. The digits of a number below
`10 ^ fuel` are stripped of all of them. -/
def strip : Nat → Decimal → Decimal
  | 0, d => d
  | fuel + 1, d =>
    if d.digits ≠ 0 ∧ d.digits % 10 = 0 then strip fuel ⟨d.digits / 10, d.exponent + 1⟩ else d

end Decimal

/-- Which of two equally near decimals of one length is taken. -/
inductive TieRule where
  /-- The greater one. -/
  | up
  /-- The one whose last digit is even. -/
  | even
deriving DecidableEq, Repr

namespace BinaryFormat

variable (format : BinaryFormat)

/-- The magnitude nearest to a decimal. A leading digit beyond the format's whole range decides
without the power of ten, so that a huge exponent costs nothing. -/
def ofDecimal (d : Decimal) : Nat :=
  if d.digits = 0 then 0
  else if (format.unitExponent : Int) < d.leadingExponent then format.infinity
  else if d.leadingExponent < -(format.unitExponent : Int) - 2 then 0
  else
    format.magnitudeOfRatio
      (d.digits * Nat.pow 10 d.exponent.toNat * format.unitsInOne)
      (Nat.pow 10 (-d.exponent).toNat)

/-- The least `k` for which a positive magnitude is below `10 ^ k`. -/
def decimalScale (magnitude : Nat) : Int :=
  let raised := format.units magnitude * Nat.pow 10 format.unitExponent / format.unitsInOne
  (Decimal.places raised : Int) - format.unitExponent

/-- The greatest multiple of `10 ^ exponent` that is at most a magnitude, as a decimal. -/
def decimalBelow (magnitude : Nat) (exponent : Int) : Decimal :=
  ⟨format.units magnitude * Nat.pow 10 (-exponent).toNat /
    (format.unitsInOne * Nat.pow 10 exponent.toNat), exponent⟩

/-- Compares a magnitude with the point halfway between a decimal and the next one on its grid. -/
def compareWithMiddle (magnitude : Nat) (d : Decimal) : Ordering :=
  compare (2 * (format.units magnitude * Nat.pow 10 (-d.exponent).toNat))
    ((2 * d.digits + 1) * (format.unitsInOne * Nat.pow 10 d.exponent.toNat))

/-- The decimal on the grid of `10 ^ exponent` that rounds to a magnitude and is nearest to it, if
the grid has one. Only the two neighbours of the magnitude on the grid can be it. -/
def decimalOn? (tie : TieRule) (magnitude : Nat) (exponent : Int) : Option Decimal :=
  let below := format.decimalBelow magnitude exponent
  let above : Decimal := ⟨below.digits + 1, exponent⟩
  match format.ofDecimal below == magnitude, format.ofDecimal above == magnitude with
  | false, false => none
  | true, false => some below
  | false, true => some above
  | true, true =>
    match format.compareWithMiddle magnitude below, tie with
    | .lt, _ => some below
    | .gt, _ => some above
    | .eq, .up => some above
    | .eq, .even => some (if below.digits % 2 = 0 then below else above)

/-- The most digits that a shortest decimal of a format can need. -/
def longestShortest : Nat := 17

/-- The shortest decimal that rounds to a finite magnitude, the nearest of those with its length. The
exact value stands in should no decimal of up to `longestShortest` digits do. -/
def shortest (tie : TieRule) (magnitude : Nat) : Decimal :=
  if magnitude = 0 then ⟨0, 0⟩
  else
    let scale := format.decimalScale magnitude
    let found := (List.range longestShortest).findSome? fun n =>
      format.decimalOn? tie magnitude (scale - (n + 1 : Nat))
    match found with
    | some d => d.strip longestShortest
    | none => ⟨format.units magnitude * Nat.pow 5 format.unitExponent, -(format.unitExponent : Int)⟩

end BinaryFormat

end Membranes
