import Membranes.Shape.Basic

/-!
# Factorization and refinement into primes

`Shape.factorize` is the shape of the prime factors of a number and `Shape.canonical` refines every
axis of a shape into its prime factors. That both are shapes rests on `primeFactors_valid`: trial
division loses nothing, so the product of the factors is the number it started from.
-/

namespace Membranes

/-! ### Trial division loses nothing -/

theorem leftover_valid (rest : UInt64) (hpos : 1 ≤ rest.toNat) (hrest : rest.toNat < UInt32.size) :
    (∀ a ∈ leftover rest, 2 ≤ a.toNat) ∧ axesProduct (leftover rest) = rest.toNat := by
  have keep : rest.toUInt32.toNat = rest.toNat := by
    rw [UInt64.toNat_toUInt32]
    exact Nat.mod_eq_of_lt hrest
  unfold leftover
  split
  · rename_i h
    have : 1 < rest.toNat := by simpa [UInt64.lt_iff_toNat_lt] using h
    simp [axesProduct, keep]
    omega
  · rename_i h
    have : ¬ 1 < rest.toNat := by simpa [UInt64.lt_iff_toNat_lt] using h
    simp [axesProduct]
    omega

/-- The factors split off a 32-bit number are at least two and multiply to it, however many steps are
taken, as long as the divisors stay far below the word size. -/
theorem primeFactorsFrom_valid (fuel : Nat) (divisor rest : UInt64) (hd : 2 ≤ divisor.toNat)
    (hsmall : divisor.toNat + 2 * fuel < 1048576) (hpos : 1 ≤ rest.toNat)
    (hrest : rest.toNat < UInt32.size) :
    (∀ a ∈ primeFactorsFrom fuel divisor rest, 2 ≤ a.toNat) ∧
      axesProduct (primeFactorsFrom fuel divisor rest) = rest.toNat := by
  induction fuel generalizing divisor rest with
  | zero => exact leftover_valid rest hpos hrest
  | succ fuel ih =>
    have square : (divisor * divisor).toNat = divisor.toNat * divisor.toNat := by
      rw [UInt64.toNat_mul]
      apply Nat.mod_eq_of_lt
      have : divisor.toNat * divisor.toNat ≤ 1048576 * 1048576 :=
        Nat.mul_le_mul (by omega) (by omega)
      omega
    simp only [primeFactorsFrom]
    split
    · rename_i hle
      rw [UInt64.le_iff_toNat_le, square] at hle
      have dle : divisor.toNat ≤ rest.toNat :=
        Nat.le_trans (Nat.le_mul_of_pos_left _ (by omega)) hle
      split
      · rename_i hdvd
        have hmod : rest.toNat % divisor.toNat = 0 := by
          simpa [UInt64.toNat_mod] using congrArg UInt64.toNat hdvd
        have quotient : (rest / divisor).toNat = rest.toNat / divisor.toNat := UInt64.toNat_div ..
        have product : divisor.toNat * (rest.toNat / divisor.toNat) = rest.toNat := by
          have := Nat.div_add_mod rest.toNat divisor.toNat
          omega
        have keep : divisor.toUInt32.toNat = divisor.toNat := by
          rw [UInt64.toNat_toUInt32]
          exact Nat.mod_eq_of_lt (by omega)
        obtain ⟨hall, hprod⟩ := ih divisor (rest / divisor) hd (by omega)
          (by rw [quotient]; exact Nat.div_pos dle (by omega))
          (by rw [quotient]; exact Nat.lt_of_le_of_lt (Nat.div_le_self ..) hrest)
        refine ⟨?_, by simp only [axesProduct, keep, hprod, quotient, product]⟩
        intro a ha
        rcases List.mem_cons.mp ha with rfl | ha
        · omega
        · exact hall a ha
      · have next : 2 ≤ (divisor + if divisor = 2 then 1 else 2).toNat ∧
            (divisor + if divisor = 2 then 1 else 2).toNat ≤ divisor.toNat + 2 := by
          split <;> rw [UInt64.toNat_add] <;> simp <;> omega
        exact ih _ rest next.1 (by omega) hpos hrest
    · exact leftover_valid rest hpos hrest

/-- **The prime factors of a positive number multiply to it,** and each is at least two. -/
theorem primeFactors_valid (n : UInt32) (hn : n ≠ 0) :
    (∀ a ∈ primeFactors n, 2 ≤ a.toNat) ∧ axesProduct (primeFactors n) = n.toNat := by
  have pos : 1 ≤ n.toNat := by
    have : n.toNat ≠ 0 := fun h => hn (UInt32.toNat_inj.mp (by simpa using h))
    omega
  have := primeFactorsFrom_valid trials 2 n.toUInt64 (by decide) (by decide)
    (by simpa using pos) (by simpa using n.toNat_lt)
  simpa [primeFactors] using this

namespace Shape

/-! ### Shapes of prime factors -/

/-- The shape of the prime factors of a number in ascending order; one gives the scalar. -/
def factorize (n : UInt32) : Except ShapeFault Shape :=
  if h : n = 0 then .error .zero
  else
    .ok ⟨primeFactors n, (primeFactors_valid n h).1, by
      rw [(primeFactors_valid n h).2]
      exact Nat.lt_trans n.toNat_lt (by decide)⟩

theorem flatMap_primeFactors_valid (axes : List UInt32) (h : ∀ a ∈ axes, 2 ≤ a.toNat) :
    (∀ a ∈ axes.flatMap primeFactors, 2 ≤ a.toNat) ∧
      axesProduct (axes.flatMap primeFactors) = axesProduct axes := by
  induction axes with
  | nil => simp [axesProduct]
  | cons a axes ih =>
    have thick : a ≠ 0 := by
      have := h a (by simp)
      intro zero
      simp [zero] at this
    obtain ⟨hall, hprod⟩ := ih fun b hb => h b (by simp [hb])
    obtain ⟨hall', hprod'⟩ := primeFactors_valid a thick
    refine ⟨?_, ?_⟩
    · intro b hb
      rw [List.flatMap_cons, List.mem_append] at hb
      exact hb.elim (hall' b) (hall b)
    · rw [List.flatMap_cons, axesProduct_append, hprod, hprod']
      rfl

/-- A shape with every axis replaced by its ascending prime factors. -/
def canonical (shape : Shape) : Shape :=
  ⟨shape.axes.flatMap primeFactors, (flatMap_primeFactors_valid _ shape.valid.1).1, by
    rw [(flatMap_primeFactors_valid _ shape.valid.1).2]
    exact shape.valid.2⟩

end Shape

end Membranes
