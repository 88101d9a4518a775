import Membranes.Binary.Basic
import Membranes.Text.Numeral

/-!
# Numbers as text

`Binary32.ofText?` reads a decimal literal, rounding once. `Binary32.toText` writes the shortest
digits that read back to the same number; where digits stop and exponents begin, and what stands for
infinities, is the business of a `NumberStyle`, one value per kind of output.
-/

namespace Membranes

/-! ### Reading -/

/-- The whole-number value of decimal digits that continue `value`. -/
def digitsValue (value : Nat) (digits : List Char) : Nat :=
  digits.foldl (fun n c => n * 10 + (c.toNat - 48)) value

/-- Splits the decimal digits off the front of a text. -/
def spanDigits (s : List Char) : List Char × List Char :=
  s.span fun c => (Text.digit? c).isSome

/-- Reads what may follow the digits of a literal: nothing, or an exponent with digits. -/
def exponent? : List Char → Option Int
  | [] => some 0
  | mark :: rest =>
    if mark = 'e' ∨ mark = 'E' then
      let (negative, rest) := match rest with
        | '-' :: more => (true, more)
        | '+' :: more => (false, more)
        | more => (false, more)
      let (digits, tail) := spanDigits rest
      if digits.isEmpty || !tail.isEmpty then none
      else some (if negative then -(digitsValue 0 digits : Int) else digitsValue 0 digits)
    else none

/-- Reads an unsigned decimal literal: digits with at most one point and at least one digit, then
perhaps an exponent. -/
def Decimal.ofLiteral? (s : List Char) : Option Decimal :=
  let (whole, rest) := spanDigits s
  let (fraction, rest) := match rest with
    | '.' :: more => spanDigits more
    | more => ([], more)
  if whole.isEmpty && fraction.isEmpty then none
  else
    (exponent? rest).map fun e => ⟨digitsValue (digitsValue 0 whole) fraction, e - fraction.length⟩

/-- Splits a sign off the front of a text; `true` is minus. -/
def splitSign : List Char → Bool × List Char
  | '-' :: rest => (true, rest)
  | '+' :: rest => (false, rest)
  | s => (false, s)

/-- Reads a number: a sign, then `inf`, `infinity` or `nan` in any case, or a decimal literal. -/
def Binary32.ofText? (s : List Char) : Option Binary32 :=
  let (negative, rest) := splitSign s
  let name := String.ofList (rest.map Char.toLower)
  if name = "inf" ∨ name = "infinity" then some (infinity negative)
  else if name = "nan" then some (ofMagnitude negative nan.magnitude)
  else
    (Decimal.ofLiteral? rest).map fun d => ofMagnitude negative (BinaryFormat.single.ofDecimal d)

/-! ### Writing -/

/-- The decisions of an output format about numbers. -/
structure NumberStyle where
  /-- Which of two equally near shortest decimals is written. -/
  tie : TieRule
  /-- Which exponents of the leading digit are written without an exponent part. -/
  positional : Int → Bool
  /-- What stands behind the digits of a whole number written positionally. -/
  wholeEnding : String
  /-- What is written for a value that is not a number. -/
  nan : String
  /-- What is written for the infinity of a sign. -/
  infinity : Bool → String

/-- Digits written positionally: zeros filled in behind or in front, and the point where it falls. -/
def Decimal.positional (d : Decimal) (wholeEnding : String) : String :=
  let digits := Nat.toDigits 10 d.digits
  let whole := (digits.length : Int) + d.exponent
  if 0 ≤ d.exponent then
    String.ofList (digits ++ List.replicate d.exponent.toNat '0') ++ wholeEnding
  else if 0 < whole then
    String.ofList (digits.take whole.toNat ++ '.' :: digits.drop whole.toNat)
  else String.ofList ('0' :: '.' :: (List.replicate (-whole).toNat '0' ++ digits))

/-- Digits written with one in front of the point and a signed exponent behind. -/
def Decimal.scientific (d : Decimal) : String :=
  let e := d.leadingExponent
  let power := (if e < 0 then "e-" else "e+") ++ toString e.natAbs
  match Nat.toDigits 10 d.digits with
  | [] => power
  | [c] => String.ofList [c] ++ power
  | c :: more => String.ofList (c :: '.' :: more) ++ power

/-- A number as text in a style. -/
def Binary32.toText (style : NumberStyle) (x : Binary32) : String :=
  if x.isNaN then style.nan
  else if x.isInfinite then style.infinity x.isNegative
  else
    let d := BinaryFormat.single.shortest style.tie x.magnitude
    (if x.isNegative then "-" else "") ++
      if style.positional d.leadingExponent then d.positional style.wholeEnding else d.scientific

/-- Numbers in messages and script answers: positional at every size, whole numbers without a point,
ties upwards. -/
def NumberStyle.plain : NumberStyle where
  tie := .up
  positional _ := true
  wholeEnding := ""
  nan := "NaN"
  infinity negative := if negative then "-inf" else "inf"

/-- Numbers in JSON: positional while the leading digit stands between `10 ^ (-6)` and `10 ^ 12`,
always with a point or an exponent; what JSON cannot express is `null`. -/
def NumberStyle.json : NumberStyle where
  tie := .even
  positional e := -6 ≤ e && e ≤ 12
  wholeEnding := ".0"
  nan := "null"
  infinity _ := "null"

end Membranes
