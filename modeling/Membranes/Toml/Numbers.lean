import Membranes.Binary.Text
import Membranes.Toml.Strings
import Membranes.Toml.Value

/-!
# Numbers and moments

Whole numbers in four bases, numbers with a fraction or an exponent, and dates and times. An underscore
may stand between two digits.
-/

namespace Membranes.Toml

/-! ### Digits -/

/-- Splits off digits that continue a number; an underscore must have a digit behind it. -/
def moreDigits (isDigit : Char → Bool) : List Char → List Char × List Char
  | [] => ([], [])
  | ['_'] => ([], ['_'])
  | '_' :: c :: s =>
    if isDigit c then
      let (digits, rest) := moreDigits isDigit s
      (c :: digits, rest)
    else ([], '_' :: c :: s)
  | c :: s =>
    if isDigit c then
      let (digits, rest) := moreDigits isDigit s
      (c :: digits, rest)
    else ([], c :: s)

/-- Reads at least one digit. -/
def readDigits (isDigit : Char → Bool) : Reader (List Char)
  | [] => none
  | c :: s =>
    if isDigit c then
      let (digits, rest) := moreDigits isDigit s
      some (c :: digits, rest)
    else none

/-- Whether a character is a decimal digit. -/
def isDecimal (c : Char) : Bool := '0' ≤ c && c ≤ '9'

/-- Reads decimal digits without a needless zero in front. -/
def readPlainDigits : Reader (List Char)
  | '0' :: s => some (['0'], s)
  | s => readDigits isDecimal s

/-! ### Numbers -/

/-- A whole number, if it fits 64 bits with sign. -/
def wholeNumber? (i : Int) : Option Value :=
  if -0x8000000000000000 ≤ i ∧ i ≤ 0x7FFFFFFFFFFFFFFF then some (.integer i) else none

/-- Reads a whole number in base two, eight or sixteen, behind its two marks. -/
def readBased (base : Nat) (s : List Char) : Option (Value × List Char) := do
  let isDigit (c : Char) : Bool := match hexDigit? c with
    | some d => d < base
    | none => false
  let (digits, rest) ← readDigits isDigit s
  let value := (← digits.mapM hexDigit?).foldl (fun n d => n * base + d) 0
  some (← wholeNumber? value, rest)

/-- Reads an exponent part, if there is one. -/
def readExponent : Reader Int
  | mark :: s =>
    if mark = 'e' ∨ mark = 'E' then do
      let (negative, s) := splitSign s
      let (digits, rest) ← readDigits isDecimal s
      let e : Int := digitsValue 0 digits
      some (if negative then -e else e, rest)
    else some (0, mark :: s)
  | [] => some (0, [])

/-- A number with a fraction or an exponent. One that is too large is refused, unless it is negative. -/
def fractional? (negative : Bool) (whole fraction : List Char) (e : Int) : Option Value :=
  let x := Binary64.ofDecimal negative
    ⟨digitsValue (digitsValue 0 whole) fraction, e - fraction.length⟩
  if x = Binary64.infinity false then none else some (.number x)

/-- Reads a number in base ten or one of the names `inf` and `nan`, perhaps with a sign. -/
def readSigned (s : List Char) : Option (Value × List Char) :=
  let (negative, rest) := splitSign s
  if "inf".toList.isPrefixOf rest then some (.number (.infinity negative), rest.drop 3)
  else if "nan".toList.isPrefixOf rest then some (.number (.nan negative), rest.drop 3)
  else do
    let (whole, rest) ← readPlainDigits rest
    match rest with
    | '.' :: more =>
      let (fraction, rest) ← readDigits isDecimal more
      let (e, rest) ← readExponent rest
      some (← fractional? negative whole fraction e, rest)
    | 'e' :: _ | 'E' :: _ =>
      let (e, rest) ← readExponent rest
      some (← fractional? negative whole [] e, rest)
    | _ =>
      let i : Int := digitsValue 0 whole
      some (← wholeNumber? (if negative then -i else i), rest)

/-! ### Moments -/

/-- Reads exactly two digits with a value in a range. -/
def readTwo (least greatest : Nat) : Reader Nat
  | a :: b :: s =>
    let value := digitsValue 0 [a, b]
    if isDecimal a && isDecimal b && least ≤ value && value ≤ greatest then some (value, s) else none
  | _ => none

/-- What follows a character. -/
def after? (c : Char) : List Char → Option (List Char)
  | d :: s => if d = c then some s else none
  | [] => none

/-- The days of a month. -/
def daysOf (year month : Nat) : Nat :=
  if month = 2 then
    if year % 4 = 0 ∧ (year % 100 ≠ 0 ∨ year % 400 = 0) then 29 else 28
  else if month ∈ [4, 6, 9, 11] then 30
  else 31

/-- What follows a date. -/
def skipDate? (s : List Char) : Option (List Char) := do
  let (century, s) ← readTwo 0 99 s
  let (years, s) ← readTwo 0 99 s
  let (month, s) ← readTwo 1 12 (← after? '-' s)
  let (_, s) ← readTwo 1 (daysOf (century * 100 + years) month) (← after? '-' s)
  some s

/-- What follows a time of day, perhaps with a fraction of a second. -/
def skipTime? (s : List Char) : Option (List Char) := do
  let (_, s) ← readTwo 0 23 s
  let (_, s) ← readTwo 0 59 (← after? ':' s)
  let (_, s) ← readTwo 0 60 (← after? ':' s)
  match s with
  | '.' :: more =>
    let digits := more.takeWhile isDecimal
    if digits.isEmpty then some s else some (more.dropWhile isDecimal)
  | _ => some s

/-- What follows an offset from universal time. -/
def skipOffset? : List Char → Option (List Char)
  | 'Z' :: s | 'z' :: s => some s
  | '+' :: s | '-' :: s => do
    let (_, s) ← readTwo 0 23 s
    let (_, s) ← readTwo 0 59 (← after? ':' s)
    some s
  | _ => none

/-- What follows a date, a time, or a date with a time. -/
def skipMoment? (s : List Char) : Option (List Char) :=
  match skipDate? s with
  | none => skipTime? s
  | some rest =>
    let time := match rest with
      | c :: more => if c = 'T' ∨ c = 't' ∨ c = ' ' then skipTime? more else none
      | [] => none
    match time with
    | none => some rest
    | some rest => some ((skipOffset? rest).getD rest)

/-- Reads a moment or a number. -/
def readNumber (s : List Char) : Option (Value × List Char) :=
  match skipMoment? s with
  | some rest => some (.moment, rest)
  | none =>
    match s with
    | '0' :: 'x' :: rest => readBased 16 rest
    | '0' :: 'o' :: rest => readBased 8 rest
    | '0' :: 'b' :: rest => readBased 2 rest
    | _ => readSigned s

end Membranes.Toml
