import Mathlib.Data.Nat.Factors
import Membranes.Proofs.Shape.Coordinate
import Membranes.Shape.Canonical

/-!
# Trial division

* `Sifted d n` is the invariant of both loops: no prime below the divisor `d` divides `n`. It passes on to the
  next divisor, though even numbers are left out (`Sifted.next`). A divisor that divides is the first prime
  factor (`Sifted.primeFactorsList_of_dvd`), and beyond the square root there is one factor left at most
  (`Sifted.primeFactorsList_of_lt`).
* `Seeks` and `Splits` are the two loops as they are meant: with no bound on their steps, and with every
  square, sum and narrowing on the way exact. `Seeks.eq_true_iff` and `Splits.map_toNat_eq` say what they
  find, and `seeks_hasNoDivisorFrom` and `exists_splits` that they come to an end.
* `map_toNat_primeFactors`: the factors that are listed for a number are those of `Nat.primeFactorsList`.

`trial_division_finds_primes` puts these together.
-/

namespace Membranes

/-! ### Numbers without small prime divisors -/

/-- The divisor that is tried after `d`: three after two, and from there on odd numbers. -/
def nextDivisor (d : ℕ) : ℕ :=
  d + if d = 2 then 1 else 2

/-- The divisor `d` is tried on `n` when all smaller ones were. -/
structure Sifted (d n : ℕ) : Prop where
  two_le : 2 ≤ d
  /-- After two only odd numbers are tried. -/
  parity : d = 2 ∨ d % 2 = 1
  pos : 0 < n
  /-- No smaller prime divides the number. -/
  le_prime : ∀ p, p.Prime → p ∣ n → d ≤ p

variable {d n : ℕ}

theorem lt_nextDivisor (d : ℕ) : d < nextDivisor d := by
  unfold nextDivisor
  split <;> omega

theorem nextDivisor_le (d : ℕ) : nextDivisor d ≤ d + 2 := by
  unfold nextDivisor
  split <;> omega

theorem Sifted.nextDivisor_odd (h : Sifted d n) : nextDivisor d % 2 = 1 := by
  have := h.parity
  unfold nextDivisor
  split <;> omega

theorem sifted_two (hn : 0 < n) : Sifted 2 n :=
  ⟨le_refl 2, Or.inl rfl, hn, fun _ hp _ => hp.two_le⟩

/-- No prime is skipped: the only even one is two. -/
theorem Sifted.next (h : Sifted d n) (hnot : ¬ d ∣ n) : Sifted (nextDivisor d) n := by
  have hd := h.two_le
  have hparity := h.parity
  have hlt := lt_nextDivisor d
  refine ⟨by omega, Or.inr h.nextDivisor_odd, h.pos, ?_⟩
  intro p hp hpn
  have hle : d ≤ p := h.le_prime p hp hpn
  have hne : p ≠ d := by
    rintro rfl
    exact hnot hpn
  have hp' : p = 2 ∨ p % 2 = 1 := hp.eq_two_or_odd
  unfold nextDivisor
  split <;> omega

theorem Sifted.div (h : Sifted d n) (hdvd : d ∣ n) : Sifted d (n / d) := by
  have hd := h.two_le
  refine ⟨hd, h.parity, Nat.div_pos (Nat.le_of_dvd h.pos hdvd) (by omega), ?_⟩
  exact fun p hp hpn => h.le_prime p hp (hpn.trans (Nat.div_dvd_of_dvd hdvd))

/-- A divisor that divides is the first prime factor. -/
theorem Sifted.primeFactorsList_of_dvd (h : Sifted d n) (hdvd : d ∣ n) :
    n.primeFactorsList = d :: (n / d).primeFactorsList := by
  have hd := h.two_le
  have hdn : d ≤ n := Nat.le_of_dvd h.pos hdvd
  have hmin : n.minFac = d := by
    apply le_antisymm (Nat.minFac_le_of_dvd hd hdvd)
    exact h.le_prime _ (Nat.minFac_prime (by omega)) (Nat.minFac_dvd n)
  obtain ⟨m, rfl⟩ : ∃ m, n = m + 2 := ⟨n - 2, by omega⟩
  rw [Nat.primeFactorsList_add_two, hmin]

/-- It is enough to try divisors up to the square root. -/
theorem Sifted.prime_of_lt (h : Sifted d n) (hn : 1 < n) (hlt : n < d * d) : n.Prime := by
  by_contra hnot
  have hsquare : n.minFac ^ 2 ≤ n := Nat.minFac_sq_le_self (by omega) hnot
  have hle : d ≤ n.minFac := h.le_prime _ (Nat.minFac_prime (by omega)) (Nat.minFac_dvd n)
  have hmul : d * d ≤ n.minFac * n.minFac := Nat.mul_le_mul hle hle
  rw [pow_two] at hsquare
  omega

/-- Beyond the square root there is one factor left, or none. -/
theorem Sifted.primeFactorsList_of_lt (h : Sifted d n) (hlt : n < d * d) :
    n.primeFactorsList = if 1 < n then [n] else [] := by
  have hpos := h.pos
  split
  · rename_i hone
    exact Nat.primeFactorsList_prime (h.prime_of_lt hone hlt)
  · obtain rfl : n = 1 := by omega
    exact Nat.primeFactorsList_one

/-! ### Exact steps on words -/

/-- The 32-bit word of a number that fits it. -/
def narrow? (n : UInt64) : Option UInt32 :=
  if n.toNat < UInt32.size then some n.toUInt32 else none

theorem product?_eq_some_iff {a b c : UInt64} : product? a b = some c ↔ c.toNat = a.toNat * b.toNat := by
  constructor
  · intro h
    unfold product? at h
    split at h
    · rename_i hfits
      obtain rfl := Option.some.inj h
      rw [UInt64.toNat_mul]
      exact Nat.mod_eq_of_lt hfits
    · exact nomatch h
  · intro h
    have hfits : a.toNat * b.toNat < UInt64.size := h ▸ c.toNat_lt
    obtain ⟨hproduct, htoNat⟩ := product?_of_lt hfits
    rw [hproduct, UInt64.toNat_inj.mp (htoNat.trans h.symm)]

theorem sum?_eq_some_iff {a b c : UInt64} : sum? a b = some c ↔ c.toNat = a.toNat + b.toNat := by
  constructor
  · intro h
    unfold sum? at h
    split at h
    · rename_i hfits
      obtain rfl := Option.some.inj h
      rw [UInt64.toNat_add]
      exact Nat.mod_eq_of_lt hfits
    · exact nomatch h
  · intro h
    have hfits : a.toNat + b.toNat < UInt64.size := h ▸ c.toNat_lt
    obtain ⟨hsum, htoNat⟩ := sum?_of_lt hfits
    rw [hsum, UInt64.toNat_inj.mp (htoNat.trans h.symm)]

theorem toNat_toUInt32_of_lt {word : UInt64} (h : word.toNat < UInt32.size) :
    word.toUInt32.toNat = word.toNat := by
  rw [UInt64.toNat_toUInt32]
  exact Nat.mod_eq_of_lt h

theorem narrow?_eq_some_iff {word : UInt64} {narrow : UInt32} :
    narrow? word = some narrow ↔ narrow.toNat = word.toNat := by
  constructor
  · intro h
    unfold narrow? at h
    split at h
    · rename_i hfits
      obtain rfl := Option.some.inj h
      exact toNat_toUInt32_of_lt hfits
    · exact nomatch h
  · intro h
    have hfits : word.toNat < UInt32.size := h ▸ narrow.toNat_lt
    rw [narrow?, if_pos hfits, UInt32.toNat_inj.mp ((toNat_toUInt32_of_lt hfits).trans h.symm)]

theorem toNat_dvd_iff {word divisor : UInt64} : word % divisor = 0 ↔ divisor.toNat ∣ word.toNat := by
  rw [Nat.dvd_iff_mod_eq_zero, ← UInt64.toNat_mod]
  exact UInt64.toNat_inj.symm

variable {word divisor rest left : UInt64} {factors taken : List UInt32} {answer : Bool}

/-- Divisors up to the square root of a 32-bit number have exact squares. -/
theorem toNat_square (h : divisor.toNat ≤ 65537) :
    (divisor * divisor).toNat = divisor.toNat * divisor.toNat := by
  have hle : divisor.toNat * divisor.toNat ≤ 65537 * 65537 := Nat.mul_le_mul h h
  rw [UInt64.toNat_mul]
  exact Nat.mod_eq_of_lt (by omega)

theorem square_le_iff (h : divisor.toNat ≤ 65537) :
    divisor * divisor ≤ word ↔ divisor.toNat * divisor.toNat ≤ word.toNat := by
  rw [UInt64.le_iff_toNat_le, toNat_square h]

/-- From `2 ^ 16` on squares are greater than every 32-bit number. -/
theorem lt_square (hd : 65536 ≤ d) (hn : n < UInt32.size) : n < d * d :=
  hn.trans_le (Nat.mul_le_mul hd hd)

theorem lt_of_square_le (h : d * d ≤ n) (hn : n < UInt32.size) : d < 65536 :=
  Nat.lt_of_not_le fun hd => Nat.not_lt.mpr h (lt_square hd hn)

theorem toNat_following {following : UInt64}
    (h : sum? divisor (if divisor = 2 then 1 else 2) = some following) :
    following.toNat = nextDivisor divisor.toNat := by
  have htwo : divisor = 2 ↔ divisor.toNat = 2 := UInt64.toNat_inj.symm
  rw [sum?_eq_some_iff] at h
  rw [h, nextDivisor]
  by_cases heq : divisor = 2
  · rw [if_pos heq, if_pos (htwo.mp heq)]
    rfl
  · rw [if_neg heq, if_neg (mt htwo.mpr heq)]
    rfl

theorem sum?_following (h : divisor.toNat < 65536) :
    sum? divisor (if divisor = 2 then 1 else 2) =
      some (divisor + if divisor = 2 then 1 else 2) := by
  have hstep : (if divisor = 2 then 1 else 2 : UInt64).toNat ≤ 2 := by
    split <;> decide
  have hsize : UInt64.size = 18446744073709551616 := rfl
  exact (sum?_of_lt (by omega)).1

/-! ### Looking for a divisor -/

/-- Looking for a divisor of a number, from `divisor` on and as long as its square is not greater, ends
with the answer whether there is none. No square and no sum on the way leaves 64 bits. -/
inductive Seeks (word : UInt64) : UInt64 → Bool → Prop
  /-- The square root is passed. -/
  | passed {divisor square : UInt64} (hsquare : product? divisor divisor = some square)
      (hlt : word < square) : Seeks word divisor true
  /-- There is a divisor. -/
  | found {divisor square : UInt64} (hsquare : product? divisor divisor = some square)
      (hle : square ≤ word) (hmod : word % divisor = 0) : Seeks word divisor false
  /-- The next odd number is tried. -/
  | next {divisor square following : UInt64} {answer : Bool}
      (hsquare : product? divisor divisor = some square) (hle : square ≤ word)
      (hmod : word % divisor ≠ 0) (hnext : sum? divisor 2 = some following)
      (h : Seeks word following answer) : Seeks word divisor answer

/-- From three on, the number is prime exactly when no divisor is found. -/
theorem Seeks.eq_true_iff (h : Seeks word divisor answer) (hword : 1 < word.toNat)
    (hd : 2 < divisor.toNat) (hsifted : Sifted divisor.toNat word.toNat) :
    answer = true ↔ word.toNat.Prime := by
  induction h with
  | passed hsquare hlt =>
    rw [product?_eq_some_iff] at hsquare
    rw [UInt64.lt_iff_toNat_lt, hsquare] at hlt
    exact iff_of_true rfl (hsifted.prime_of_lt hword hlt)
  | @found divisor square hsquare hle hmod =>
    rw [product?_eq_some_iff] at hsquare
    rw [UInt64.le_iff_toNat_le, hsquare] at hle
    refine iff_of_false Bool.false_ne_true fun hprime => ?_
    rcases hprime.eq_one_or_self_of_dvd _ (toNat_dvd_iff.mp hmod) with hone | hself
    · omega
    · have hlt : divisor.toNat * 1 < divisor.toNat * divisor.toNat :=
        Nat.mul_lt_mul_of_pos_left (by omega) (by omega)
      omega
  | @next divisor square following answer hsquare hle hmod hnext _ ih =>
    have hfollowing : following.toNat = nextDivisor divisor.toNat := by
      rw [sum?_eq_some_iff] at hnext
      rw [hnext, nextDivisor, if_neg (by omega)]
      rfl
    have hlt := lt_nextDivisor divisor.toNat
    apply ih
    · omega
    · rw [hfollowing]
      exact hsifted.next (mt toNat_dvd_iff.mpr hmod)

/-- The steps allotted to looking for a divisor are as good as no bound. -/
theorem seeks_hasNoDivisorFrom (hword : word.toNat < UInt32.size) (fuel : ℕ) :
    ∀ divisor : UInt64, divisor.toNat ≤ 65537 → 65536 ≤ divisor.toNat + 2 * fuel →
      Seeks word divisor (hasNoDivisorFrom word fuel divisor) := by
  induction fuel with
  | zero =>
    intro divisor hsmall hfuel
    have hlt : word.toNat < divisor.toNat * divisor.toNat := lt_square (by omega) hword
    have hnot := mt (square_le_iff hsmall).mp (Nat.not_le.mpr hlt)
    exact .passed (product?_eq_some_iff.mpr (toNat_square hsmall)) (UInt64.not_le.mp hnot)
  | succ fuel ih =>
    intro divisor hsmall hfuel
    have hexact := product?_eq_some_iff.mpr (toNat_square hsmall)
    rw [hasNoDivisorFrom]
    by_cases hle : divisor * divisor ≤ word
    · rw [if_pos hle]
      by_cases hmod : word % divisor = 0
      · rw [if_pos hmod]
        exact .found hexact hle hmod
      · rw [if_neg hmod]
        have hroot := lt_of_square_le ((square_le_iff hsmall).mp hle) hword
        have hnext : (divisor + 2).toNat = divisor.toNat + 2 := by
          rw [UInt64.toNat_add]
          exact Nat.mod_eq_of_lt (by simp; omega)
        exact .next hexact hle hmod (sum?_eq_some_iff.mpr hnext) (ih _ (by omega) (by omega))
    · rw [if_neg hle]
      exact .passed hexact (UInt64.not_le.mp hle)

/-- Where the loop is entered at all, the answer is what it finds. -/
theorem seeks_isPrime {n : UInt32} (hfour : 4 ≤ n) (hodd : n % 2 ≠ 0) :
    Seeks n.toUInt64 3 (isPrime n) := by
  have hone : ¬ n < 2 := by
    rw [UInt32.not_lt]
    exact UInt32.le_trans (by decide) hfour
  rw [isPrime, if_neg hone, if_neg (UInt32.not_lt.mpr hfour), if_neg hodd]
  apply seeks_hasNoDivisorFrom
  · rw [UInt32.toNat_toUInt64]
    exact n.toNat_lt
  · decide
  · decide

theorem mod_two_eq_zero_iff {n : UInt32} : n % 2 = 0 ↔ n.toNat % 2 = 0 := by
  rw [← UInt32.toNat_inj, UInt32.toNat_mod]
  rfl

/-- Two does not divide an odd number. -/
theorem sifted_three (hodd : n % 2 = 1) : Sifted 3 n := by
  have hnot : ¬ 2 ∣ n := by omega
  exact (sifted_two (by omega)).next hnot

/-- Where the loop is entered, what it answers is whether the number is prime. -/
theorem Seeks.eq_true_iff_prime {n : UInt32} (h : Seeks n.toUInt64 3 answer) (hfour : 4 ≤ n)
    (hodd : n % 2 ≠ 0) : answer = true ↔ n.toNat.Prime := by
  have hword : n.toUInt64.toNat = n.toNat := UInt32.toNat_toUInt64 n
  have hge : 4 ≤ n.toNat := UInt32.le_iff_toNat_le.mp hfour
  have hmod : n.toNat % 2 = 1 := by
    have := mt mod_two_eq_zero_iff.mpr hodd
    omega
  have hiff := h.eq_true_iff (by omega) (by decide) (hword ▸ sifted_three hmod)
  rwa [hword] at hiff

/-- **The primes are the numbers without a divisor that is tried.** -/
theorem isPrime_eq_true_iff (n : UInt32) : isPrime n = true ↔ n.toNat.Prime := by
  have hlt_iff : ∀ bound : UInt32, n < bound ↔ n.toNat < bound.toNat := fun _ => UInt32.lt_iff_toNat_lt
  by_cases hone : n < 2
  · have hlt : n.toNat < 2 := (hlt_iff 2).mp hone
    rw [isPrime, if_pos hone]
    refine iff_of_false Bool.false_ne_true fun hprime => ?_
    have := hprime.two_le
    omega
  by_cases hfour : n < 4
  · have hlt : n.toNat < 4 := (hlt_iff 4).mp hfour
    have hge : ¬ n.toNat < 2 := mt (hlt_iff 2).mpr hone
    have hcases : n.toNat = 2 ∨ n.toNat = 3 := by omega
    rw [isPrime, if_neg hone, if_pos hfour]
    rcases hcases with htwo | hthree
    · rw [htwo]
      exact iff_of_true rfl Nat.prime_two
    · rw [hthree]
      exact iff_of_true rfl Nat.prime_three
  by_cases heven : n % 2 = 0
  · have hge : ¬ n.toNat < 4 := mt (hlt_iff 4).mpr hfour
    have hmod : n.toNat % 2 = 0 := mod_two_eq_zero_iff.mp heven
    rw [isPrime, if_neg hone, if_neg hfour, if_pos heven]
    refine iff_of_false Bool.false_ne_true fun hprime => ?_
    have := hprime.eq_two_or_odd
    omega
  · have hge : 4 ≤ n := UInt32.not_lt.mp hfour
    exact (seeks_isPrime hge heven).eq_true_iff_prime hge heven

/-! ### Splitting off factors -/

/-- Dividing a number by `divisor` as often as that leaves no remainder gives these factors and what is
left. -/
inductive TakesOut (divisor : UInt64) : UInt64 → List UInt32 → UInt64 → Prop
  /-- It does not divide any more. -/
  | stop {rest : UInt64} (hmod : rest % divisor ≠ 0) : TakesOut divisor rest [] rest
  /-- It divides once more. -/
  | once {rest left : UInt64} {factor : UInt32} {factors : List UInt32} (hmod : rest % divisor = 0)
      (hfactor : narrow? divisor = some factor) (h : TakesOut divisor (rest / divisor) factors left) :
      TakesOut divisor rest (factor :: factors) left

/-- Taking all divisors out of a number, from `divisor` on and as long as its square is not greater than
what is left, ends with these factors. No square and no sum on the way leaves 64 bits, and every factor
fits 32 bits. -/
inductive Splits : UInt64 → UInt64 → List UInt32 → Prop
  /-- One is left, which is no factor. -/
  | one {divisor rest square : UInt64} (hsquare : product? divisor divisor = some square)
      (hlt : rest < square) (hone : rest ≤ 1) : Splits divisor rest []
  /-- A last factor is left. -/
  | last {divisor rest square : UInt64} {factor : UInt32}
      (hsquare : product? divisor divisor = some square) (hlt : rest < square) (hone : 1 < rest)
      (hfactor : narrow? rest = some factor) : Splits divisor rest [factor]
  /-- The divisor is taken out and the next one is tried. -/
  | round {divisor rest square left following : UInt64} {taken factors : List UInt32}
      (hsquare : product? divisor divisor = some square) (hle : square ≤ rest)
      (htaken : TakesOut divisor rest taken left)
      (hnext : sum? divisor (if divisor = 2 then 1 else 2) = some following)
      (h : Splits following left factors) : Splits divisor rest (taken ++ factors)

/-- What is taken out are the first prime factors, and they are no factors of what is left. -/
theorem TakesOut.primeFactorsList_eq (h : TakesOut divisor rest taken left)
    (hsifted : Sifted divisor.toNat rest.toNat) :
    rest.toNat.primeFactorsList = taken.map UInt32.toNat ++ left.toNat.primeFactorsList ∧
      Sifted divisor.toNat left.toNat ∧ ¬ divisor.toNat ∣ left.toNat := by
  induction h with
  | stop hmod => exact ⟨rfl, hsifted, mt toNat_dvd_iff.mpr hmod⟩
  | once hmod hfactor _ ih =>
    have hdvd := toNat_dvd_iff.mp hmod
    rw [narrow?_eq_some_iff] at hfactor
    rw [UInt64.toNat_div] at ih
    obtain ⟨hlist, hkept⟩ := ih (hsifted.div hdvd)
    refine ⟨?_, hkept⟩
    rw [hsifted.primeFactorsList_of_dvd hdvd, hlist, List.map_cons, hfactor, List.cons_append]

/-- Whatever is split off are the prime factors. -/
theorem Splits.map_toNat_eq (h : Splits divisor rest factors)
    (hsifted : Sifted divisor.toNat rest.toNat) :
    factors.map UInt32.toNat = rest.toNat.primeFactorsList := by
  induction h with
  | @one divisor rest square hsquare hlt hone =>
    rw [product?_eq_some_iff] at hsquare
    rw [UInt64.lt_iff_toNat_lt, hsquare] at hlt
    have hle : ¬ 1 < rest.toNat := Nat.not_lt.mpr (UInt64.le_iff_toNat_le.mp hone)
    rw [hsifted.primeFactorsList_of_lt hlt, if_neg hle]
    rfl
  | @last divisor rest square factor hsquare hlt hone hfactor =>
    rw [product?_eq_some_iff] at hsquare
    rw [UInt64.lt_iff_toNat_lt, hsquare] at hlt
    rw [narrow?_eq_some_iff] at hfactor
    have hlt' : 1 < rest.toNat := UInt64.lt_iff_toNat_lt.mp hone
    rw [hsifted.primeFactorsList_of_lt hlt, if_pos hlt', List.map_singleton, hfactor]
  | round hsquare hle htaken hnext _ ih =>
    obtain ⟨hlist, hleft, hnot⟩ := htaken.primeFactorsList_eq hsifted
    rw [List.map_append, hlist, ih]
    rw [toNat_following hnext]
    exact hleft.next hnot

/-! ### The factors that are listed -/

theorem map_toNat_leftover (hsifted : Sifted d rest.toNat) (hrest : rest.toNat < UInt32.size)
    (hlt : rest.toNat < d * d) : (leftover rest).map UInt32.toNat = rest.toNat.primeFactorsList := by
  have hone : 1 < rest ↔ 1 < rest.toNat := UInt64.lt_iff_toNat_lt
  rw [hsifted.primeFactorsList_of_lt hlt, leftover]
  by_cases h : 1 < rest
  · rw [if_pos h, if_pos (hone.mp h), List.map_singleton, toNat_toUInt32_of_lt hrest]
  · rw [if_neg h, if_neg (mt hone.mpr h)]
    rfl

/-- Dividing by two or more is at least halving. -/
theorem div_lt_two_pow {halvings : ℕ} (hd : 2 ≤ d) (h : n < 2 ^ (halvings + 1)) :
    n / d < 2 ^ halvings := by
  rw [Nat.div_lt_iff_lt_mul (by omega)]
  calc n < 2 ^ halvings * 2 := by rwa [← pow_succ]
    _ ≤ 2 ^ halvings * d := Nat.mul_le_mul_left _ hd

/-- The steps suffice: each of them halves what is left at least, or goes on to the next of the odd numbers
below `2 ^ 16`. -/
theorem map_toNat_primeFactorsFrom (fuel : ℕ) : ∀ (divisor rest : UInt64) (halvings : ℕ),
    Sifted divisor.toNat rest.toNat → divisor.toNat ≤ 65537 → rest.toNat < UInt32.size →
    rest.toNat < 2 ^ halvings →
    65537 + 2 * halvings ≤ divisor.toNat + divisor.toNat % 2 + 2 * fuel →
    (primeFactorsFrom fuel divisor rest).map UInt32.toNat = rest.toNat.primeFactorsList := by
  induction fuel with
  | zero =>
    intro divisor rest halvings hsifted hsmall hrest hhalvings hfuel
    exact map_toNat_leftover hsifted hrest (lt_square (by omega) hrest)
  | succ fuel ih =>
    intro divisor rest halvings hsifted hsmall hrest hhalvings hfuel
    rw [primeFactorsFrom]
    by_cases hle : divisor * divisor ≤ rest
    · have hlt : divisor.toNat < 65536 := lt_of_square_le ((square_le_iff hsmall).mp hle) hrest
      rw [if_pos hle]
      by_cases hmod : rest % divisor = 0
      · have hdvd := toNat_dvd_iff.mp hmod
        -- A number that is divided is not below `2 ^ 0`, so that a halving is left for it.
        obtain ⟨fewer, rfl⟩ : ∃ fewer, halvings = fewer + 1 := by
          refine Nat.exists_eq_succ_of_ne_zero ?_
          rintro rfl
          have := hsifted.pos
          omega
        have hhalf := div_lt_two_pow hsifted.two_le hhalvings
        have hfactor : divisor.toUInt32.toNat = divisor.toNat :=
          toNat_toUInt32_of_lt (hlt.trans (by decide))
        have hless : rest.toNat / divisor.toNat < UInt32.size :=
          (Nat.div_le_self _ _).trans_lt hrest
        have hlist := ih divisor (rest / divisor) fewer
        rw [UInt64.toNat_div] at hlist
        rw [if_pos hmod, List.map_cons, hfactor, hsifted.primeFactorsList_of_dvd hdvd,
          hlist (hsifted.div hdvd) hsmall hless hhalf (by omega)]
      · have hnext := toNat_following (sum?_following hlt)
        have hstep := nextDivisor_le divisor.toNat
        -- Two goes on by one only; the parity of the divisor makes up for that.
        have hfuel' : 65537 + 2 * halvings ≤
            nextDivisor divisor.toNat + nextDivisor divisor.toNat % 2 + 2 * fuel := by
          have hparity := hsifted.parity
          rw [hsifted.nextDivisor_odd, nextDivisor]
          split <;> omega
        rw [if_neg hmod]
        refine ih _ rest halvings ?_ ?_ hrest hhalvings ?_ <;> rw [hnext]
        · exact hsifted.next (mt toNat_dvd_iff.mpr hmod)
        · omega
        · exact hfuel'
    · rw [if_neg hle]
      exact map_toNat_leftover hsifted hrest (Nat.lt_of_not_le (mt (square_le_iff hsmall).mpr hle))

theorem toNat_pos {n : UInt32} (h : n ≠ 0) : 0 < n.toNat :=
  Nat.pos_of_ne_zero fun hzero => h (UInt32.toNat_inj.mp hzero)

/-- **The factors that are listed are the prime factors.** -/
theorem map_toNat_primeFactors {n : UInt32} (h : n ≠ 0) :
    (primeFactors n).map UInt32.toNat = n.toNat.primeFactorsList := by
  have hword : n.toUInt64.toNat = n.toNat := UInt32.toNat_toUInt64 n
  have hlist := map_toNat_primeFactorsFrom trials 2 n.toUInt64 32
  rw [hword] at hlist
  exact hlist (sifted_two (toNat_pos h)) (by decide) n.toNat_lt n.toNat_lt (by decide)

/-! ### Both loops come to an end -/

theorem exists_takesOut (hsmall : divisor.toNat < UInt32.size) :
    ∀ size (rest : UInt64), rest.toNat = size → Sifted divisor.toNat rest.toNat →
      ∃ taken left, TakesOut divisor rest taken left := by
  intro size
  induction size using Nat.strong_induction_on with
  | _ size ih =>
    intro rest hsize hsifted
    by_cases hmod : rest % divisor = 0
    · have hdvd := toNat_dvd_iff.mp hmod
      have hless : (rest / divisor).toNat < size := by
        rw [UInt64.toNat_div, ← hsize]
        exact Nat.div_lt_self hsifted.pos hsifted.two_le
      have hquotient : Sifted divisor.toNat (rest / divisor).toNat := by
        rw [UInt64.toNat_div]
        exact hsifted.div hdvd
      obtain ⟨taken, left, htaken⟩ := ih _ hless _ rfl hquotient
      have hfactor := narrow?_eq_some_iff.mpr (toNat_toUInt32_of_lt hsmall)
      exact ⟨_, left, .once hmod hfactor htaken⟩
    · exact ⟨[], rest, .stop hmod⟩

theorem TakesOut.le (h : TakesOut divisor rest taken left) : left.toNat ≤ rest.toNat := by
  induction h with
  | stop => exact le_refl _
  | once _ _ _ ih =>
    rw [UInt64.toNat_div] at ih
    exact ih.trans (Nat.div_le_self _ _)

theorem exists_splits_of_lt (hsmall : divisor.toNat ≤ 65537) (hrest : rest.toNat < UInt32.size)
    (hlt : rest.toNat < divisor.toNat * divisor.toNat) : ∃ factors, Splits divisor rest factors := by
  have hexact := product?_eq_some_iff.mpr (toNat_square hsmall)
  have hpassed := UInt64.not_le.mp (mt (square_le_iff hsmall).mp (Nat.not_le.mpr hlt))
  by_cases hone : 1 < rest
  · have hfactor := narrow?_eq_some_iff.mpr (toNat_toUInt32_of_lt hrest)
    exact ⟨_, .last hexact hpassed hone hfactor⟩
  · exact ⟨[], .one hexact hpassed (UInt64.not_lt.mp hone)⟩

/-- Trial division comes to an end: the divisors grow, and none is greater than the square root. -/
theorem exists_splits (rounds : ℕ) : ∀ divisor rest : UInt64, Sifted divisor.toNat rest.toNat →
    divisor.toNat ≤ 65537 → rest.toNat < UInt32.size → 65536 ≤ divisor.toNat + rounds →
    ∃ factors, Splits divisor rest factors := by
  induction rounds with
  | zero =>
    intro divisor rest _ hsmall hrest hrounds
    exact exists_splits_of_lt hsmall hrest (lt_square (by omega) hrest)
  | succ rounds ih =>
    intro divisor rest hsifted hsmall hrest hrounds
    by_cases hle : divisor.toNat * divisor.toNat ≤ rest.toNat
    · have hroot : divisor.toNat < 65536 := lt_of_square_le hle hrest
      obtain ⟨taken, left, htaken⟩ := exists_takesOut (hroot.trans (by decide)) _ rest rfl hsifted
      obtain ⟨-, hsifted', hnot⟩ := htaken.primeFactorsList_eq hsifted
      have hnext := sum?_following hroot
      have hfollowing := toNat_following hnext
      have hgreater := lt_nextDivisor divisor.toNat
      have hstep := nextDivisor_le divisor.toNat
      obtain ⟨factors, hsplits⟩ := ih _ left (hfollowing ▸ hsifted'.next hnot) (by omega)
        (htaken.le.trans_lt hrest) (by omega)
      have hexact := product?_eq_some_iff.mpr (toNat_square hsmall)
      exact ⟨taken ++ factors, .round hexact ((square_le_iff hsmall).mpr hle) htaken hnext hsplits⟩
    · exact exists_splits_of_lt hsmall hrest (Nat.lt_of_not_le hle)

/-! ### What trial division finds -/

theorem map_toNat_inj {xs ys : List UInt32} : xs.map UInt32.toNat = ys.map UInt32.toNat ↔ xs = ys :=
  (List.map_injective_iff.mpr fun _ _ => UInt32.toNat_inj.mp).eq_iff

theorem seeks_iff {n : UInt32} (hfour : 4 ≤ n) (hodd : n % 2 ≠ 0) :
    Seeks n.toUInt64 3 answer ↔ answer = isPrime n := by
  constructor
  · intro hseeks
    rw [Bool.eq_iff_iff, hseeks.eq_true_iff_prime hfour hodd, isPrime_eq_true_iff]
  · rintro rfl
    exact seeks_isPrime hfour hodd

theorem splits_iff {n : UInt32} (h : n ≠ 0) :
    Splits 2 n.toUInt64 factors ↔ factors = primeFactors n := by
  have hword : n.toUInt64.toNat = n.toNat := UInt32.toNat_toUInt64 n
  have hsifted : Sifted (2 : UInt64).toNat n.toUInt64.toNat := sifted_two (hword ▸ toNat_pos h)
  have hunique : ∀ factors, Splits 2 n.toUInt64 factors → factors = primeFactors n := by
    intro factors hsplits
    rw [← map_toNat_inj, map_toNat_primeFactors h, hsplits.map_toNat_eq hsifted, hword]
  constructor
  · exact hunique factors
  · rintro rfl
    obtain ⟨factors, hsplits⟩ := exists_splits 65536 2 n.toUInt64 hsifted (by decide)
      (hword ▸ n.toNat_lt) (by decide)
    rwa [← hunique factors hsplits]

/-- The ascending list of primes with a given product is unique. -/
theorem eq_primeFactorsList_iff {primes : List ℕ} (hn : n ≠ 0) :
    primes = n.primeFactorsList ↔
      primes.Pairwise (· ≤ ·) ∧ (∀ p ∈ primes, p.Prime) ∧ primes.prod = n := by
  have hascending : n.primeFactorsList.Pairwise (· ≤ ·) := (Nat.primeFactorsList_sorted n).pairwise
  constructor
  · rintro rfl
    exact ⟨hascending, fun p => Nat.prime_of_mem_primeFactorsList, Nat.prod_primeFactorsList hn⟩
  · rintro ⟨hsorted, hprime, hprod⟩
    exact (Nat.primeFactorsList_unique hprod hprime).eq_of_pairwise' hsorted hascending

theorem primeFactors_eq_singleton_iff {n : UInt32} (h : n ≠ 0) :
    primeFactors n = [n] ↔ n.toNat.Prime := by
  rw [← map_toNat_inj, map_toNat_primeFactors h, List.map_singleton]
  constructor
  · intro hlist
    apply Nat.prime_of_mem_primeFactorsList (n := n.toNat)
    rw [hlist]
    exact List.mem_singleton_self _
  · exact Nat.primeFactorsList_prime

theorem Shape.factorize_of_ne {n : UInt32} (h : n ≠ 0) :
    ∃ shape, factorize n = .ok shape ∧ shape.axes = primeFactors n :=
  ⟨_, dif_neg h, rfl⟩

/-- **Trial division is correct for every 32-bit number.** Primality is decided, a positive number is split
into the one ascending list of primes whose product it is, and a number is prime exactly when this list
holds the number alone. The loops come to an end without a bound on their steps, each with this result and no
other, and nothing is lost on the way: not in squares and sums of 64 bits, nor in factors of 32 bits. -/
theorem trial_division_finds_primes (n : UInt32) :
    (isPrime n = true ↔ n.toNat.Prime) ∧
    (isPrime n = true ↔ ∃ shape, Shape.factorize n = .ok shape ∧ shape.axes = [n]) ∧
    (n ≠ 0 → ∃ shape, Shape.factorize n = .ok shape ∧
      (∀ primes : List ℕ, primes = shape.axes.map UInt32.toNat ↔
        primes.Pairwise (· ≤ ·) ∧ (∀ p ∈ primes, p.Prime) ∧ primes.prod = n.toNat) ∧
      ∀ factors, Splits 2 n.toUInt64 factors ↔ factors = shape.axes) ∧
    (4 ≤ n → n % 2 ≠ 0 → ∀ answer, Seeks n.toUInt64 3 answer ↔ answer = isPrime n) := by
  refine ⟨isPrime_eq_true_iff n, ?_, ?_, fun hfour hodd answer => seeks_iff hfour hodd⟩
  · rw [isPrime_eq_true_iff]
    by_cases hzero : n = 0
    · rw [hzero]
      refine iff_of_false Nat.not_prime_zero ?_
      rintro ⟨shape, hshape, -⟩
      exact nomatch hshape
    · obtain ⟨shape, hshape, haxes⟩ := Shape.factorize_of_ne hzero
      rw [hshape, ← primeFactors_eq_singleton_iff hzero, ← haxes]
      constructor
      · exact fun hlist => ⟨shape, rfl, hlist⟩
      · rintro ⟨_, hok, hlist⟩
        rwa [Except.ok.inj hok]
  · intro hzero
    obtain ⟨shape, hshape, haxes⟩ := Shape.factorize_of_ne hzero
    have hpos := toNat_pos hzero
    refine ⟨shape, hshape, fun primes => ?_, fun factors => ?_⟩
    · rw [haxes, map_toNat_primeFactors hzero]
      exact eq_primeFactorsList_iff (by omega)
    · rw [haxes]
      exact splits_iff hzero

/-- The greatest 32-bit number is not prime, and has five prime factors. -/
theorem trial_division_finds_primes_greatest :
    ¬ Nat.Prime 4294967295 ∧ Seeks 4294967295 3 false ∧
      Splits 2 4294967295 [3, 5, 17, 257, 65537] ∧
      ∃ shape, Shape.factorize 4294967295 = .ok shape ∧ shape.axes = [3, 5, 17, 257, 65537] ∧
        (∀ p ∈ [3, 5, 17, 257, 65537], Nat.Prime p) ∧ [3, 5, 17, 257, 65537].prod = 4294967295 := by
  have hanswer : isPrime 4294967295 = false := by decide +kernel
  have hfactors : primeFactors 4294967295 = [3, 5, 17, 257, 65537] := by decide +kernel
  obtain ⟨hprime, -, hfactorize, hseeks⟩ := trial_division_finds_primes 4294967295
  obtain ⟨shape, hshape, hprimes, hsplits⟩ := hfactorize (by decide)
  have haxes : shape.axes = [3, 5, 17, 257, 65537] := by
    rw [← Except.ok.inj hshape]
    exact hfactors
  obtain ⟨-, hall, hprod⟩ := (hprimes [3, 5, 17, 257, 65537]).mp (by rw [haxes]; rfl)
  refine ⟨?_, ?_, ?_, shape, hshape, haxes, hall, hprod⟩
  · exact fun h => Bool.false_ne_true (hanswer.symm.trans (hprime.mpr h))
  · exact (hseeks (by decide) (by decide) false).mpr hanswer.symm
  · exact (hsplits _).mpr haxes.symm

end Membranes
