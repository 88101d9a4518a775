import Membranes.Proofs.Exchange.Room

/-!
# Using again what was released

* `Store.Recovers`: a destruction makes room for as many membranes as were destroyed, and for one more in
  the place of the first of them; where a symbol was removed, any symbol can be added.
* `Orderly.recovers`: forests within their limits do. The owner of what is destroyed stays
  (`Forest.contains_owner`) and has one child less (`Forest.length_childrenOf_withoutSubtree`), and no
  path becomes longer, so that one more child is not too deep either.
-/

namespace Membranes

namespace Store

variable {store after : Store} {id owner : MembraneId} {shape : Shape} {membrane : Membrane}

/-- What was destroyed or removed leaves as much room behind. -/
structure Recovers (store : Store) : Prop where
  /-- A destruction makes room for as many membranes as were destroyed, and for one more in the place of
  the first of them. -/
  destroy : ∀ {id parent}, store.parent id = .ok parent →
    ∃ released after, store.destroy id = ⟨.ok released, after⟩ ∧
      after.size + released.length = store.size ∧
      (store.nextId.toNat + released.length < UInt32.size → after.Supplies released.length) ∧
      (∀ owner children, parent = some owner → store.children owner = .ok children →
        ∃ others, after.children owner = .ok others ∧ others.length + 1 = children.length) ∧
      ∀ shape, store.config.limits.Admits shape → store.nextId.toNat + 1 < UInt32.size →
        ∃ new, ((Operation.creation parent shape).run after).answer = .ok (.created new)
  /-- Where a symbol was removed, any symbol can be added. -/
  remove : ∀ {id symbol after}, store.removeSymbol id symbol = ⟨.ok (), after⟩ →
    (∃ held, store.symbols id = .ok held ∧ after.symbols id = .ok (held.erase symbol) ∧
      (held.erase symbol).length + 1 = held.length) ∧
    ∀ other, checkSymbol other = .ok () → (after.addSymbol id other).answer = .ok ()

theorem Forest.contains_owner (h : store.Forest) (hid : store.ownerOf? id = some (some owner)) :
    (store.withoutSubtree id (some owner)).contains owner = true := by
  have howns : store.Owns owner id := h.mem_ownedBy_iff.mpr hid
  exact contains_withoutSubtree.mpr ⟨live_of_owns howns, h.owner_stays hid⟩

/-- Of its children an owner loses the one that is destroyed. -/
theorem Forest.length_childrenOf_withoutSubtree (h : store.Forest)
    (hid : store.ownerOf? id = some (some owner)) :
    ((store.withoutSubtree id (some owner)).childrenOf owner).length + 1 =
      (store.childrenOf owner).length := by
  have howns : store.Owns owner id := h.mem_ownedBy_iff.mpr hid
  have hstays : some owner ∉ (id :: store.descendants id).map some := by
    have hnot := h.owner_stays hid
    simpa [or_comm] using hnot
  have hothers : (store.withoutSubtree id (some owner)).childrenOf owner =
      (store.childrenOf owner).filter (· ≠ id) :=
    (ownedBy_withoutSubtree (some owner) (some owner)).trans ((if_neg hstays).trans (if_pos rfl))
  have herase : (store.childrenOf owner).filter (· ≠ id) = (store.childrenOf owner).erase id := by
    rw [(h.nodup_childrenOf owner).erase_eq_filter]
    apply List.filter_congr
    intro other _
    rw [Bool.eq_iff_iff]
    simp
  have hpos : 0 < (store.childrenOf owner).length := List.length_pos_of_mem howns
  rw [hothers, herase, List.length_erase_of_mem howns]
  omega

/-- What lost a child may have another one. -/
theorem Orderly.checkOwner_withoutSubtree (h : store.Orderly)
    (hid : store.ownerOf? id = some (some owner)) :
    (store.withoutSubtree id (some owner)).checkOwner owner = .ok () := by
  have hforest := h.forest.withoutSubtree hid
  have howns : store.Owns owner id := h.forest.mem_ownedBy_iff.mpr hid
  have hlength := h.forest.length_childrenOf_withoutSubtree hid
  have hle := h.fits.children_le owner
  obtain ⟨path, hpath⟩ := hforest.exists_path (h.forest.contains_owner hid)
  have hbefore : store.Path path owner := by
    refine hpath.of_ownedBy_subset fun other _ hmem => ?_
    exact ((h.forest.mem_ownedBy_withoutSubtree_iff hid).mp hmem).2
  apply hpath.checkOwner hforest
  · rw [withoutSubtree_config]
    omega
  · rw [withoutSubtree_config]
    exact h.shallow path owner id hbefore howns

/-- One more membrane can be created in the place of one that was destroyed. -/
theorem Orderly.hasRoom_withoutSubtree (h : store.Orderly)
    (hfind : store.membranes.find? id = some membrane)
    (hadmits : store.config.limits.Admits shape) (hcounter : store.nextId.toNat + 1 < UInt32.size) :
    (store.withoutSubtree id membrane.parent).HasRoomBeside membrane.parent shape := by
  have hsize := h.forest.size_withoutSubtree hfind
  rw [List.length_append, List.length_singleton] at hsize
  have hle := h.fits.size_le
  constructor
  · intro owner howner
    rw [howner]
    exact h.checkOwner_withoutSubtree (ownerOf?_eq_some_iff.mpr ⟨membrane, hfind, howner⟩)
  · refine checkRoom_eq_ok_iff.mpr ⟨?_, ?_, ?_⟩
    · rwa [withoutSubtree_config]
    · rw [withoutSubtree_config]
      omega
    · rwa [withoutSubtree_nextId]

theorem removeSymbol_eq_ok {symbol : String} (h : store.removeSymbol id symbol = ⟨.ok (), after⟩) :
    ∃ membrane, store.membranes.find? id = some membrane ∧ membrane.holds symbol = true ∧
      after = store.put id (membrane.withoutSymbol symbol) :=
  (store.removeSymbol_atomically id symbol).of_eq_ok h

/-- **What was destroyed or removed leaves as much room behind.** -/
theorem Orderly.recovers (h : store.Orderly) : store.Recovers where
  destroy := by
    intro id parent hparent
    obtain ⟨membrane, hmembrane, rfl⟩ := map_eq_ok_iff.mp hparent
    have hfind := store.membrane_eq_ok_iff.mp hmembrane
    have hsize := h.forest.size_withoutSubtree hfind
    refine ⟨_, _, destroy_of_find? hfind, hsize, fun hcounter => ⟨?_, ?_⟩, ?_, ?_⟩
    · rw [hsize, withoutSubtree_config]
      exact h.fits.size_le
    · rwa [withoutSubtree_nextId]
    · intro owner children howner hchildren
      obtain ⟨-, rfl⟩ := children_eq_ok_iff.mp hchildren
      have hid : store.ownerOf? id = some (some owner) :=
        ownerOf?_eq_some_iff.mpr ⟨membrane, hfind, howner⟩
      rw [howner]
      exact ⟨_, children_eq_ok_iff.mpr ⟨h.forest.contains_owner hid, rfl⟩,
        h.forest.length_childrenOf_withoutSubtree hid⟩
    · intro shape hadmits hcounter
      have hroom := h.hasRoom_withoutSubtree hfind hadmits hcounter
      exact ⟨_, congrArg Outcome.answer hroom.run_creation⟩
  remove := by
    intro id symbol after hremoved
    obtain ⟨membrane, hfind, hholds, rfl⟩ := removeSymbol_eq_ok hremoved
    have hafter : (store.put id (membrane.withoutSymbol symbol)).membranes.find? id =
        some (membrane.withoutSymbol symbol) := by
      rw [find?_put, if_pos rfl]
    have hmem : symbol ∈ membrane.symbols := List.contains_iff_mem.mp hholds
    have hpos : 0 < membrane.symbols.length := List.length_pos_of_mem hmem
    have hlength : (membrane.symbols.erase symbol).length + 1 = membrane.symbols.length := by
      rw [List.length_erase_of_mem hmem]
      omega
    constructor
    · exact ⟨membrane.symbols, symbols_of_find? hfind, symbols_of_find? hafter, hlength⟩
    · intro other hother
      have hroom : (membrane.withoutSymbol symbol).symbols.length <
          store.config.limits.maxObjects.toNat :=
        Nat.lt_of_lt_of_le (Nat.lt_of_succ_le (Nat.le_of_eq hlength)) (h.fits.membrane hfind).symbols_le
      obtain ⟨changed, hadding⟩ := exists_adding hroom other
      exact congrArg Outcome.answer (addSymbol_of_adding hafter hother hadding)

end Store

end Membranes
