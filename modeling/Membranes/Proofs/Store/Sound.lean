import Membranes.Proofs.Store.Operation

/-!
# Sound stores

In a sound store every membrane stands under its own identifier, which the counter has passed, its
owner is older than itself, its shape is within the limits, its elements fill the shape, and its
checksum is the one of its content. `Sound.step` keeps this through each step of a store and
`Sound.steps` through any number of them; the empty store is sound.
-/

namespace Membranes

/-- What holds of a membrane that a store with these limits keeps under an identifier. -/
structure Membrane.Sound (limits : Limits) (id : MembraneId) (membrane : Membrane) : Prop where
  /-- The membrane knows its identifier. -/
  id_eq : membrane.id = id
  /-- The shape is within the limits. -/
  admits : limits.Admits membrane.shape
  /-- The elements fill the shape. -/
  size_eq : membrane.buffer.size = membrane.shape.volume.toNat
  /-- The checksum is the one of the content. -/
  checksum_eq : membrane.checksum = checksumOf membrane.shape membrane.buffer
  /-- The owner is older. -/
  owner_lt : ∀ owner, membrane.parent = some owner → owner < id

namespace Membrane

variable {limits : Limits} {id : MembraneId} {membrane changed : Membrane}

theorem Sound.withContent (h : membrane.Sound limits id) {shape : Shape} {buffer : Array Binary32}
    (hadmits : limits.Admits shape) (hsize : buffer.size = shape.volume.toNat) :
    (membrane.withContent shape buffer).Sound limits id where
  id_eq := h.id_eq
  admits := hadmits
  size_eq := hsize
  checksum_eq := rfl
  owner_lt := h.owner_lt

theorem Sound.mutates (h : membrane.Sound limits id) (hmutates : membrane.Mutates limits changed) :
    changed.Sound limits id := by
  cases hmutates with
  | rewrite hsize => exact h.withContent h.admits (hsize.trans h.size_eq)
  | reshape hadmits hvolume => exact h.withContent hadmits (by rw [← hvolume, h.size_eq])
  | gain | lose => exact ⟨h.id_eq, h.admits, h.size_eq, h.checksum_eq, h.owner_lt⟩

theorem Sound.withVersion (h : membrane.Sound limits id) (version : UInt64) :
    ({ membrane with version } : Membrane).Sound limits id :=
  ⟨h.id_eq, h.admits, h.size_eq, h.checksum_eq, h.owner_lt⟩

theorem Sound.withEnergy (h : membrane.Sound limits id) (energy : UInt32) :
    ({ membrane with energy } : Membrane).Sound limits id :=
  ⟨h.id_eq, h.admits, h.size_eq, h.checksum_eq, h.owner_lt⟩

theorem Sound.withChildren (h : membrane.Sound limits id) (children : List MembraneId) :
    ({ membrane with children } : Membrane).Sound limits id :=
  ⟨h.id_eq, h.admits, h.size_eq, h.checksum_eq, h.owner_lt⟩

end Membrane

namespace Store

/-- What holds of every store that its operations can reach. -/
structure Sound (store : Store) : Prop where
  /-- Every live membrane is sound. -/
  membrane : ∀ {id membrane}, store.membranes.find? id = some membrane →
    membrane.Sound store.config.limits id
  /-- The counter is above every live identifier. -/
  lt_nextId : ∀ {id membrane}, store.membranes.find? id = some membrane →
    id.value < store.nextId

variable {store after : Store}

theorem sound_empty (config : StoreConfig) (entropy : UInt64) : (Store.empty config entropy).Sound :=
  ⟨fun h => by simp [Store.empty] at h, fun h => by simp [Store.empty] at h⟩

/-- The next identifier is not in use. -/
theorem Sound.find?_nextId (h : store.Sound) : store.membranes.find? ⟨store.nextId⟩ = none := by
  rw [Option.eq_none_iff_forall_ne_some]
  intro membrane hfind
  exact UInt32.lt_irrefl _ (h.lt_nextId hfind)

theorem Sound.put (h : store.Sound) {id : MembraneId} {membrane changed : Membrane}
    (hfind : store.membranes.find? id = some membrane)
    (hchanged : changed.Sound store.config.limits id) : (store.put id changed).Sound := by
  constructor
  · intro other result hresult
    rw [find?_put] at hresult
    split at hresult
    · rename_i heq
      obtain rfl := Option.some.inj hresult
      exact heq ▸ hchanged
    · exact h.membrane hresult
  · intro other result hresult
    rw [find?_put] at hresult
    split at hresult
    · rename_i heq
      rw [heq]
      exact h.lt_nextId hfind
    · exact h.lt_nextId hresult

/-! ### Creation -/

theorem size_freshBuffer (store : Store) (count : Nat) :
    (store.freshBuffer count).1.size = count := by
  unfold Store.freshBuffer
  split
  · exact Array.size_replicate
  · exact Array.size_ofFn

theorem lt_nextId_add_one (hcounter : store.nextId.toNat + 1 < UInt32.size) {value : UInt32} :
    value < store.nextId + 1 ↔ value ≤ store.nextId := by
  have hnext : (store.nextId + 1).toNat = store.nextId.toNat + 1 := by
    rw [UInt32.toNat_add]
    exact Nat.mod_eq_of_lt hcounter
  rw [UInt32.lt_iff_toNat_lt, UInt32.le_iff_toNat_le, hnext, Nat.lt_succ_iff]

theorem Sound.withFresh (h : store.Sound) {shape : Shape} {parent : Option MembraneId}
    (hroom : store.checkRoom shape = .ok ())
    (hparent : ∀ owner, parent = some owner → store.contains owner = true) :
    (store.withFresh shape parent).Sound := by
  obtain ⟨hadmits, -, hcounter⟩ := checkRoom_eq_ok_iff.mp hroom
  constructor
  · intro other result hresult
    rw [find?_withFresh] at hresult
    split at hresult
    · rename_i heq
      obtain rfl := Option.some.inj hresult
      refine ⟨heq.symm, hadmits, size_freshBuffer store _, rfl, fun owner howner => ?_⟩
      -- A live owner is below the counter, and the counter is the new identifier.
      obtain ⟨membrane, hfind⟩ := contains_iff.mp (hparent owner howner)
      exact heq ▸ h.lt_nextId hfind
    · exact h.membrane hresult
  · intro other result hresult
    rw [find?_withFresh] at hresult
    -- The counter does not wrap: `checkRoom` keeps its last value unused.
    apply (lt_nextId_add_one hcounter).mpr
    split at hresult
    · rename_i heq
      exact heq ▸ UInt32.le_refl _
    · exact UInt32.le_of_lt (h.lt_nextId hresult)

theorem Sound.withRoots (h : store.Sound) (roots : List MembraneId) :
    ({ store with roots } : Store).Sound :=
  ⟨h.membrane, h.lt_nextId⟩

theorem Sound.attach (h : store.Sound) (owner child : MembraneId) :
    (store.attach owner child).Sound := by
  unfold Store.attach
  split
  · rename_i hfind
    exact h.put hfind ((h.membrane hfind).withChildren _)
  · exact h

/-! ### Destruction -/

theorem find?_foldl_erase {α : Type} (ids : List MembraneId) (map : IdMap α) (other : MembraneId) :
    (ids.foldl IdMap.erase map).find? other =
      if other ∈ ids then none else map.find? other := by
  induction ids generalizing map with
  | nil => simp
  | cons id ids ih =>
    rw [List.foldl_cons, ih, IdMap.find?_erase]
    by_cases hmem : other ∈ ids
    · rw [if_pos hmem, if_pos (List.mem_cons_of_mem _ hmem)]
    · rw [if_neg hmem]
      simp [List.mem_cons, hmem]

theorem find?_release (store : Store) (ids : List MembraneId) (other : MembraneId) :
    (store.release ids).membranes.find? other =
      if other ∈ ids then none else store.membranes.find? other :=
  find?_foldl_erase ids store.membranes other

theorem Sound.release (h : store.Sound) (ids : List MembraneId) : (store.release ids).Sound := by
  constructor <;> intro other result hresult <;> rw [find?_release] at hresult <;>
    split at hresult
  · exact absurd hresult (Option.some_ne_none _).symm
  · exact h.membrane hresult
  · exact absurd hresult (Option.some_ne_none _).symm
  · exact h.lt_nextId hresult

theorem Sound.detach (h : store.Sound) (id : MembraneId) (owner : Option MembraneId) :
    (store.detach id owner).Sound := by
  unfold Store.detach
  split
  · exact h.withRoots _
  · split
    · rename_i hfind
      exact h.put hfind ((h.membrane hfind).withChildren _)
    · exact h

/-! ### Steps -/

/-- **Every step keeps a store sound.** -/
theorem Sound.step (h : store.Sound) (hstep : store.Step after) : after.Sound := by
  cases hstep with
  | mutate hfind hmutates => exact h.put hfind ((h.membrane hfind).mutates hmutates)
  | install version hfind hadmits hsize =>
    exact h.put hfind (((h.membrane hfind).withContent hadmits hsize).withVersion version)
  | spend hfind hamount => exact h.put hfind ((h.membrane hfind).withEnergy _)
  | root hroom => exact (h.withFresh hroom (by simp)).withRoots _
  | child howner hroom =>
    refine (h.withFresh hroom ?_).attach _ _
    rintro _ ⟨⟩
    exact live_of_checkOwner howner
  | destroy hfind => exact ((h.release _).detach _ _).release _

theorem Sound.steps (h : store.Sound) (hsteps : store.Steps after) : after.Sound := by
  induction hsteps with
  | refl => exact h
  | tail _ hstep ih => exact ih.step hstep

end Store

end Membranes
