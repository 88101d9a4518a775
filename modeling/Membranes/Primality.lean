/-!
# Primality and factorization by trial division

Both loops divide by two and then by odd numbers only, and stop at the square root. They run on 64-bit
words for numbers of 32 bits: a tried divisor stays below `2 ^ 17`, so its square is exact. The fuel
`trials` exceeds the number of steps that any 32-bit number takes.
-/

namespace Membranes

/-- More steps than trial division of a 32-bit number takes: at most 31 divisions and one step for
every odd number below `2 ^ 16`. -/
def trials : Nat := 65536

/-- Whether no number among `divisor`, `divisor + 2`, … up to the square root divides `n`. -/
def hasNoDivisorFrom (n : UInt64) : Nat → UInt64 → Bool
  | 0, _ => true
  | fuel + 1, divisor =>
    if divisor * divisor ≤ n then
      if n % divisor = 0 then false else hasNoDivisorFrom n fuel (divisor + 2)
    else true

/-- Whether a number is prime. -/
def isPrime (n : UInt32) : Bool :=
  if n < 2 then false
  else if n < 4 then true
  else if n % 2 = 0 then false
  else hasNoDivisorFrom n.toUInt64 trials 3

/-- What is left of a number when all divisors up to its square root are taken out: a last factor,
unless it is one. -/
def leftover (rest : UInt64) : List UInt32 :=
  if 1 < rest then [rest.toUInt32] else []

/-- Divides `rest` by the divisors from `divisor` on, as often as each divides, and ends when the
divisor passes the square root. -/
def primeFactorsFrom : Nat → UInt64 → UInt64 → List UInt32
  | 0, _, rest => leftover rest
  | fuel + 1, divisor, rest =>
    if divisor * divisor ≤ rest then
      if rest % divisor = 0 then
        divisor.toUInt32 :: primeFactorsFrom fuel divisor (rest / divisor)
      else primeFactorsFrom fuel (divisor + if divisor = 2 then 1 else 2) rest
    else leftover rest

/-- The prime factors of a positive number in ascending order, repeats included. One has none. -/
def primeFactors (n : UInt32) : List UInt32 :=
  primeFactorsFrom trials 2 n.toUInt64

end Membranes
