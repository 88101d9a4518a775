import Membranes.Proofs.Shape.TrialDivision

/-!
# Refinement into primes

* `Shape.map_toNat_canonical_perm`: the axes of a refinement are the prime factors of the volume, in some
  order.
* `Shape.reshapable_iff_perm_canonical`: so a buffer can go from one shape to another exactly when their
  refinements have the same axes, each as often.
* `Shape.PrimeBlock` is what one axis is refined into, and `Shape.canonical_eq_self_iff` says which shapes
  are refined already. `Shape.canonical_refines` puts the laws of refinement together.
-/

namespace Membranes

namespace Shape

variable {axes : List UInt32}

theorem ne_zero_of_two_le {a : UInt32} (h : 2 ≤ a.toNat) : a ≠ 0 := by
  rintro rfl
  exact absurd h (by decide)

/-- The axes into which sizes are refined are the prime factors of their product. -/
theorem map_toNat_flatMap_perm (h : ∀ a ∈ axes, 2 ≤ a.toNat) :
    ((axes.flatMap primeFactors).map UInt32.toNat).Perm (axesProduct axes).primeFactorsList := by
  induction axes with
  | nil => exact .of_eq Nat.primeFactorsList_one.symm
  | cons a axes ih =>
    have hsize : 2 ≤ a.toNat := h a List.mem_cons_self
    have hrest : ∀ b ∈ axes, 2 ≤ b.toNat := fun b hb => h b (List.mem_cons_of_mem a hb)
    have hproduct : (a.toNat.primeFactorsList ++ (axesProduct axes).primeFactorsList).Perm
        (a.toNat * axesProduct axes).primeFactorsList :=
      (Nat.perm_primeFactorsList_mul (by omega) (axesProduct_pos hrest).ne').symm
    rw [List.flatMap_cons, List.map_append, map_toNat_primeFactors (ne_zero_of_two_le hsize)]
    exact ((ih hrest).append_left _).trans hproduct

/-- The axes of a refinement are the prime factors of the volume. -/
theorem map_toNat_canonical_perm (shape : Shape) :
    (shape.canonical.axes.map UInt32.toNat).Perm shape.volume.toNat.primeFactorsList := by
  rw [toNat_volume]
  exact map_toNat_flatMap_perm shape.valid.1

theorem toNat_volume_ne_zero (shape : Shape) : shape.volume.toNat ≠ 0 := by
  rw [toNat_volume]
  exact (axesProduct_pos shape.valid.1).ne'

/-- **A buffer can go from one shape to another exactly when both are refined into the same primes,** each as
often, in whatever order and however they were grouped to axes. -/
theorem reshapable_iff_perm_canonical (source target : Shape) :
    source.reshapable target = true ↔ source.canonical.axes.Perm target.canonical.axes := by
  have hsource := source.map_toNat_canonical_perm
  have htarget := target.map_toNat_canonical_perm
  have hinjective : Function.Injective UInt32.toNat := fun _ _ => UInt32.toNat_inj.mp
  rw [reshapable, beq_iff_eq, ← List.map_perm_map_iff hinjective]
  constructor
  · intro hvolume
    rw [hvolume] at hsource
    exact hsource.trans htarget.symm
  · intro hperm
    have hfactors := (hsource.symm.trans hperm).trans htarget
    apply UInt64.toNat_inj.mp
    exact Nat.eq_of_perm_primeFactorsList source.toNat_volume_ne_zero target.toNat_volume_ne_zero hfactors

/-- Six and ten places refine into the same primes as four and fifteen. -/
example : (⟨[6, 10], by decide⟩ : Shape).reshapable ⟨[4, 15], by decide⟩ = true := by decide +kernel

/-! ### Blocks of primes -/

/-- What an axis is refined into. -/
structure PrimeBlock (a : UInt32) (block : List UInt32) : Prop where
  /-- The axis can be factorized, and the block is what that gives. -/
  factorize_eq : ∃ factors, factorize a = .ok factors ∧ factors.axes = block
  ascending : block.Pairwise (· ≤ ·)
  prime : ∀ p ∈ block, p.toNat.Prime
  product_eq : axesProduct block = a.toNat

theorem primeBlock_primeFactors {a : UInt32} (h : a ≠ 0) : PrimeBlock a (primeFactors a) := by
  have hlist := map_toNat_primeFactors h
  refine ⟨factorize_of_ne h, ?_, ?_, (primeFactors_valid a h).2⟩
  · have hsorted : ((primeFactors a).map UInt32.toNat).Pairwise (· ≤ ·) := by
      rw [hlist]
      exact (Nat.primeFactorsList_sorted _).pairwise
    exact (List.pairwise_map.mp hsorted).imp UInt32.le_iff_toNat_le.mpr
  · intro p hp
    apply Nat.prime_of_mem_primeFactorsList (n := a.toNat)
    rw [← hlist]
    exact List.mem_map_of_mem hp

/-- A refinement has one block for each axis, in the order of the axes. -/
theorem exists_blocks (shape : Shape) :
    ∃ blocks, List.Forall₂ PrimeBlock shape.axes blocks ∧ shape.canonical.axes = blocks.flatten := by
  refine ⟨shape.axes.map primeFactors, ?_, List.flatMap_def⟩
  rw [List.forall₂_map_right_iff, List.forall₂_same]
  exact fun a ha => primeBlock_primeFactors (ne_zero_of_two_le (shape.valid.1 a ha))

/-! ### Refined shapes -/

theorem hasPrimeAxes_iff {shape : Shape} :
    shape.hasPrimeAxes = true ↔ ∀ a ∈ shape.axes, a.toNat.Prime := by
  simp only [hasPrimeAxes, List.all_eq_true, isPrime_eq_true_iff]

theorem prime_of_mem_canonical {shape : Shape} {p : UInt32} (hp : p ∈ shape.canonical.axes) :
    p.toNat.Prime :=
  Nat.prime_of_mem_primeFactorsList
    (shape.map_toNat_canonical_perm.mem_iff.mp (List.mem_map_of_mem hp))

theorem volume_canonical (shape : Shape) : shape.canonical.volume = shape.volume := by
  apply UInt64.toNat_inj.mp
  rw [toNat_volume, toNat_volume]
  exact (flatMap_primeFactors_valid _ shape.valid.1).2

/-- **The shapes that refinement leaves as they are have prime axes only.** -/
theorem canonical_eq_self_iff {shape : Shape} :
    shape.canonical = shape ↔ shape.hasPrimeAxes = true := by
  rw [hasPrimeAxes_iff]
  constructor
  · intro hself a ha
    rw [← hself] at ha
    exact prime_of_mem_canonical ha
  · intro hprime
    have hblock : ∀ a ∈ shape.axes, primeFactors a = [a] := fun a ha =>
      (primeFactors_eq_singleton_iff (ne_zero_of_two_le (shape.valid.1 a ha))).mpr (hprime a ha)
    apply eq_of_axes_eq
    show shape.axes.flatMap primeFactors = shape.axes
    rw [List.flatMap_congr hblock, List.flatMap_singleton']

/-- **The laws of refinement.** A refinement has a block of ascending primes for each axis, in the order of
the axes, and the product of a block is its axis; no axis fails to be factorized. The check that a list of
sizes has to pass lets the refinement through as it is: all sizes are at least two, and in 64 bits their
product is exact and is the volume that there was. Refining once more changes nothing, and the shapes that
are not changed at all are those with prime axes. -/
theorem canonical_refines (shape : Shape) :
    (∃ blocks, List.Forall₂ PrimeBlock shape.axes blocks ∧ shape.canonical.axes = blocks.flatten) ∧
    (∀ p ∈ shape.canonical.axes, 2 ≤ p.toNat ∧ p.toNat.Prime) ∧
    axesProduct shape.canonical.axes = shape.volume.toNat ∧ shape.canonical.volume = shape.volume ∧
    ofAxes shape.canonical.axes = .ok shape.canonical ∧
    shape.canonical.canonical = shape.canonical ∧
    (shape.canonical = shape ↔ shape.hasPrimeAxes = true) := by
  have hprime : ∀ p ∈ shape.canonical.axes, p.toNat.Prime := fun p hp => prime_of_mem_canonical hp
  refine ⟨shape.exists_blocks, fun p hp => ⟨(hprime p hp).two_le, hprime p hp⟩, ?_,
    shape.volume_canonical, ofAxes_eq_ok_iff.mpr rfl, ?_, canonical_eq_self_iff⟩
  · rw [← volume_canonical, toNat_volume]
  · rw [canonical_eq_self_iff, hasPrimeAxes_iff]
    exact hprime

/-- Primes ascend within the block of an axis, and the blocks stay in the order of the axes. -/
example : (canonical ⟨[5, 12, 2], by decide⟩).axes = [5, 2, 2, 3, 2] := by decide +kernel

end Shape

end Membranes
