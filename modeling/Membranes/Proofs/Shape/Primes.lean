import Membranes.Proofs.Shape.Refinement

/-!
# The primes of a shape

* `FirstOccurrences`: what a list holds, each member once and in the order in which the list comes to it.
  There is one list like this (`FirstOccurrences.eq`), and for the axes of a shape `Shape.distinctAxes` is the
  one (`Shape.firstOccurrences_distinctAxes`).
* `Shape.ListsPrimes`: the primes that divide the volume, in the order in which the refinement comes to them.
  They are the distinct axes of the refinement (`Shape.listsPrimes_iff`), so that those of the shape itself are
  its primes only if its axes are prime (`Shape.listsPrimes_distinctAxes_iff`).
-/

namespace Membranes

/-! ### First occurrences -/

/-- A list holds what another one holds, in the order of the first occurrences there. -/
structure FirstOccurrences (xs distinct : List UInt32) : Prop where
  mem_iff : ∀ a, a ∈ distinct ↔ a ∈ xs
  ordered : distinct.Pairwise fun a b => xs.idxOf a < xs.idxOf b

namespace FirstOccurrences

variable {xs distinct distinct' : List UInt32}

/-- Nothing stands in front of itself. -/
theorem nodup (h : FirstOccurrences xs distinct) : distinct.Nodup := by
  refine h.ordered.imp fun hlt heq => ?_
  rw [heq] at hlt
  exact Nat.lt_irrefl _ hlt

/-- The order of first occurrences leaves no choice. -/
theorem eq (h : FirstOccurrences xs distinct) (h' : FirstOccurrences xs distinct') :
    distinct = distinct' := by
  have hperm : distinct.Perm distinct' := by
    rw [List.perm_ext_iff_of_nodup h.nodup h'.nodup]
    exact fun a => (h.mem_iff a).trans (h'.mem_iff a).symm
  exact hperm.eq_of_pairwise (fun _ _ _ _ hlt hgt => absurd hlt (Nat.lt_asymm hgt)) h.ordered h'.ordered

/-- A member that was there before is left out, and a new one stands behind all others. -/
theorem snoc (h : FirstOccurrences xs distinct) (a : UInt32) :
    FirstOccurrences (xs ++ [a]) (if distinct.contains a then distinct else distinct ++ [a]) := by
  -- First occurrences in the list so far stay where they are.
  have hkept : distinct.Pairwise fun b c => (xs ++ [a]).idxOf b < (xs ++ [a]).idxOf c := by
    refine h.ordered.imp_of_mem fun {b c} hb hc hlt => ?_
    rwa [List.idxOf_append_of_mem ((h.mem_iff b).mp hb), List.idxOf_append_of_mem ((h.mem_iff c).mp hc)]
  by_cases ha : a ∈ xs
  · rw [if_pos (List.contains_iff_mem.mpr ((h.mem_iff a).mpr ha))]
    refine ⟨fun b => ?_, hkept⟩
    rw [h.mem_iff, List.mem_append, List.mem_singleton]
    refine (or_iff_left_of_imp ?_).symm
    rintro rfl
    exact ha
  · rw [if_neg (mt List.contains_iff_mem.mp (mt (h.mem_iff a).mp ha))]
    refine ⟨fun b => ?_, List.pairwise_append.mpr ⟨hkept, List.pairwise_singleton _ _, ?_⟩⟩
    · rw [List.mem_append, List.mem_append, h.mem_iff]
    · intro b hb c hc
      obtain rfl := List.mem_singleton.mp hc
      have hb' : b ∈ xs := (h.mem_iff b).mp hb
      rw [List.idxOf_append_of_mem hb', List.idxOf_append_of_notMem ha]
      exact (List.idxOf_lt_length_iff.mpr hb').trans_le (Nat.le_add_right _ _)

end FirstOccurrences

/-- Looking at one member after the other finds the first occurrences. -/
theorem firstOccurrences_foldl (xs : List UInt32) : FirstOccurrences xs
    (xs.foldl (fun seen a => if seen.contains a then seen else seen ++ [a]) []) := by
  induction xs using List.reverseRecOn with
  | nil => exact ⟨fun _ => Iff.rfl, .nil⟩
  | append_singleton xs a ih =>
    rw [List.foldl_append]
    exact ih.snoc a

namespace Shape

theorem firstOccurrences_distinctAxes (shape : Shape) : FirstOccurrences shape.axes shape.distinctAxes :=
  firstOccurrences_foldl shape.axes

/-! ### Primes -/

/-- A list of the primes of a shape. -/
structure ListsPrimes (shape : Shape) (primes : List UInt32) : Prop where
  nodup : primes.Nodup
  prime : ∀ p ∈ primes, p.toNat.Prime
  /-- The primes of a shape are those that divide its volume. -/
  mem_iff : ∀ p : ℕ, p ∈ primes.map UInt32.toNat ↔ p.Prime ∧ p ∣ shape.volume.toNat
  /-- They stand in the order in which the refinement comes to them. -/
  ordered : primes.Pairwise fun p q => shape.canonical.axes.idxOf p < shape.canonical.axes.idxOf q

variable {shape : Shape} {primes : List UInt32}

theorem mem_map_canonical_iff (p : ℕ) :
    p ∈ shape.canonical.axes.map UInt32.toNat ↔ p.Prime ∧ p ∣ shape.volume.toNat := by
  rw [shape.map_toNat_canonical_perm.mem_iff, Nat.mem_primeFactorsList shape.toNat_volume_ne_zero]

/-- The primes of a shape are what its refinement holds. -/
theorem listsPrimes_iff_firstOccurrences :
    shape.ListsPrimes primes ↔ FirstOccurrences shape.canonical.axes primes := by
  have hinjective : Function.Injective UInt32.toNat := fun _ _ => UInt32.toNat_inj.mp
  constructor
  · intro h
    refine ⟨fun p => ?_, h.ordered⟩
    rw [← List.mem_map_of_injective hinjective, h.mem_iff, ← mem_map_canonical_iff,
      List.mem_map_of_injective hinjective]
  · intro h
    refine ⟨h.nodup, fun p hp => prime_of_mem_canonical ((h.mem_iff p).mp hp), fun p => ?_, h.ordered⟩
    rw [← mem_map_canonical_iff, List.mem_map, List.mem_map]
    simp only [h.mem_iff]

/-- **The primes of a shape are the distinct axes of its refinement.** -/
theorem listsPrimes_iff : shape.ListsPrimes primes ↔ primes = shape.canonical.distinctAxes := by
  have hdistinct := shape.canonical.firstOccurrences_distinctAxes
  rw [listsPrimes_iff_firstOccurrences]
  constructor
  · exact fun h => h.eq hdistinct
  · rintro rfl
    exact hdistinct

/-- Axes that are no primes are listed as they are. -/
theorem ListsPrimes.hasPrimeAxes (h : shape.ListsPrimes shape.distinctAxes) : shape.hasPrimeAxes = true := by
  rw [hasPrimeAxes_iff]
  exact fun a ha => h.prime a ((shape.firstOccurrences_distinctAxes.mem_iff a).mpr ha)

/-- **Which shapes have their primes for distinct axes.** The distinct axes are the sizes of a shape in the order
of their first occurrence. The primes that divide the volume, in the order in which the refinement comes to
them, are the distinct axes of the refinement and no other list. So the distinct axes of a shape are its
primes exactly when all its axes are prime. -/
theorem listsPrimes_distinctAxes_iff (shape : Shape) :
    FirstOccurrences shape.axes shape.distinctAxes ∧
    (∀ primes, shape.ListsPrimes primes ↔ primes = shape.canonical.distinctAxes) ∧
    (shape.ListsPrimes shape.distinctAxes ↔ shape.hasPrimeAxes = true) := by
  refine ⟨shape.firstOccurrences_distinctAxes, fun primes => listsPrimes_iff, ?_⟩
  constructor
  · exact ListsPrimes.hasPrimeAxes
  · intro hprime
    rw [listsPrimes_iff, canonical_eq_self_iff.mpr hprime]

/-- One axis of four places has two for its prime, and four is what is listed. -/
theorem not_listsPrimes_distinctAxes :
    distinctAxes ⟨[4], by decide⟩ = [4] ∧ ListsPrimes ⟨[4], by decide⟩ [2] ∧
      ¬ ∀ shape : Shape, shape.ListsPrimes shape.distinctAxes := by
  have hprimes : ListsPrimes ⟨[4], by decide⟩ [2] := by
    rw [listsPrimes_iff]
    decide +kernel
  refine ⟨rfl, hprimes, fun hall => ?_⟩
  have hfour := listsPrimes_iff.mp (hall ⟨[4], by decide⟩)
  rw [← listsPrimes_iff.mp hprimes] at hfour
  exact absurd hfour (by decide)

end Shape

end Membranes
