/-!
# Unsigned numerals

`readBounded` reads a decimal numeral below a bound from left to right and stops at the first
character that rules it out, so the fault it reports is the one at the leftmost bad place. One `+` may
stand in front. `hex8` writes a word as eight hexadecimal digits.
-/

namespace Membranes.Text

/-- Why a text is not a numeral. -/
inductive NumeralFault where
  /-- There is no character at all. -/
  | empty
  /-- A character is not a decimal digit, or a sign stands alone. -/
  | invalidDigit
  /-- The digits read so far are not below the bound. -/
  | tooLarge
deriving DecidableEq, Repr

/-- The wording of a numeral fault. -/
def NumeralFault.message : NumeralFault → String
  | .empty => "cannot parse integer from empty string"
  | .invalidDigit => "invalid digit found in string"
  | .tooLarge => "number too large to fit in target type"

/-- The value of an ASCII decimal digit. -/
def digit? (c : Char) : Option Nat :=
  if '0' ≤ c ∧ c ≤ '9' then some (c.toNat - 48) else none

/-- Appends the digits of a text to the value read so far. -/
def readDigits (bound value : Nat) : List Char → Except NumeralFault Nat
  | [] => .ok value
  | c :: rest =>
    match digit? c with
    | none => .error .invalidDigit
    | some d =>
      if value * 10 + d < bound then readDigits bound (value * 10 + d) rest else .error .tooLarge

/-- Reads a numeral below `bound`, with at most one `+` in front. -/
def readBounded (bound : Nat) : List Char → Except NumeralFault Nat
  | [] => .error .empty
  | ['+'] => .error .invalidDigit
  | '+' :: rest => readDigits bound 0 rest
  | s => readDigits bound 0 s

/-- Reads a 32-bit numeral. -/
def readUInt32 (s : List Char) : Except NumeralFault UInt32 :=
  (readBounded UInt32.size s).map UInt32.ofNat

/-- The lower-case hexadecimal digit of a number below sixteen. -/
def hexDigit (n : Nat) : Char :=
  Char.ofNat (if n < 10 then 48 + n else 87 + n)

/-- A word as eight lower-case hexadecimal digits. -/
def hex8 (word : UInt32) : String :=
  String.ofList ([7, 6, 5, 4, 3, 2, 1, 0].map fun place => hexDigit (word.toNat >>> (4 * place) % 16))

/-- Items written one after the other with a separator between neighbours. -/
def joined (separator : String) (items : List String) : String :=
  separator.intercalate items

end Membranes.Text
