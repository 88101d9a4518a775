import Membranes.Proofs.Store.Forest

/-!
# How deep forests are

* `Path.depth_eq`: the depth that a store counts for a membrane is the length of the path to it. The
  counting is allotted as many steps as there are membranes, and a path has no more members than
  that.
* `Store.Shallow`: everything that owns something is above the deepest level that the limits allow.
  Steps keep this (`Forest.shallow_step`): a membrane is only created under an owner whose depth was
  checked, and destruction makes no path longer.

So the depth of an owner never stands against one more child: what owns one child is not too deep
for another one.
-/

namespace Membranes

namespace Store

variable {store after : Store} {path : List MembraneId} {owner id new : MembraneId}
  {parent : Option MembraneId}

/-! ### Paths and depths -/

theorem Path.last_mem (hpath : store.Path path id) : id ∈ path := by
  cases hpath <;> simp

theorem Path.live (hpath : store.Path path id) (h : store.Forest) :
    ∀ other ∈ path, store.contains other = true := by
  induction hpath with
  | root hroot =>
    have hlive := Forest.live_of_ownerOf? (h.mem_roots_iff.mp hroot)
    simpa using hlive
  | child _ howns ih =>
    have hlive := Forest.live_of_ownerOf? (h.ownerOf?_eq howns)
    simpa [or_imp, forall_and, hlive] using ih

theorem Path.le_last (hpath : store.Path path id) (h : store.Forest) :
    ∀ other ∈ path, other.value.toNat ≤ id.value.toNat := by
  induction hpath with
  | root => simp
  | child _ howns ih =>
    have hlt := h.owns_lt howns
    intro other hmem
    rcases List.mem_append.mp hmem with hmem | hmem
    · have := ih other hmem
      omega
    · obtain rfl := List.mem_singleton.mp hmem
      exact Nat.le_refl _

theorem Path.nodup (hpath : store.Path path id) (h : store.Forest) : path.Nodup := by
  induction hpath with
  | root => simp
  | @child path owner id hpath howns ih =>
    refine List.nodup_append.mpr ⟨ih, by simp, ?_⟩
    -- Whatever comes before is as old as the owner, or older.
    rintro other hmem _ hlast rfl
    have hle := hpath.le_last h other hmem
    have hlt := h.owns_lt howns
    rw [List.mem_singleton.mp hlast] at hle
    omega

theorem Path.length_le_size (hpath : store.Path path id) (h : store.Forest) :
    path.length ≤ store.size :=
  Store.length_le_size (hpath.nodup h) (hpath.live h)

theorem Path.length_le_value (hpath : store.Path path id) (h : store.Forest) :
    path.length ≤ id.value.toNat + 1 := by
  induction hpath with
  | root => simp
  | child _ howns ih =>
    have hlt := h.owns_lt howns
    rw [List.length_append, List.length_singleton]
    omega

theorem Path.length_lt (hpath : store.Path path id) (h : store.Forest) :
    path.length < UInt32.size := by
  have hle := hpath.length_le_value h
  have hlt := h.lt_nextId_of_live (hpath.live h id hpath.last_mem)
  have hcounter := store.nextId.toNat_lt
  simp only [UInt32.size]
  omega

/-- Counting adds one for every owner, and the steps suffice for a path that is no longer. -/
theorem Path.depthFrom_eq (hpath : store.Path path id) (h : store.Forest) {membrane : Membrane}
    (hfind : store.membranes.find? id = some membrane) {fuel : ℕ} (hfuel : path.length ≤ fuel + 1)
    (above : ℕ) : store.depthFrom fuel (.ofNat (above + 1)) membrane.parent =
      .ok (.ofNat (above + path.length)) := by
  induction hpath generalizing membrane fuel above with
  | root hroot =>
    obtain ⟨root, hroot, hparent⟩ := ownerOf?_eq_some_iff.mp (h.mem_roots_iff.mp hroot)
    obtain rfl := Option.some.inj (hfind.symm.trans hroot)
    rw [hparent]
    cases fuel <;> rfl
  | @child path owner id hpath howns ih =>
    obtain ⟨child, hchild, hparent⟩ := ownerOf?_eq_some_iff.mp (h.ownerOf?_eq howns)
    obtain rfl := Option.some.inj (hfind.symm.trans hchild)
    obtain ⟨lord, hlord⟩ := contains_iff.mp (Forest.live_of_owns howns)
    rw [List.length_append, List.length_singleton] at hfuel ⊢
    -- There is a step left, since the path to the owner is not empty.
    have hpos : 0 < path.length := List.length_pos_of_mem hpath.last_mem
    obtain ⟨fuel, rfl⟩ := Nat.exists_eq_add_of_le' (show 1 ≤ fuel by omega)
    have hnext := ih hlord (show path.length ≤ fuel + 1 by omega) (above + 1)
    rw [hparent]
    show (store.membrane owner >>= fun lord =>
      store.depthFrom fuel (.ofNat (above + 1) + 1) lord.parent) = _
    have hadd : UInt32.ofNat (above + 1) + 1 = .ofNat (above + 1 + 1) := (UInt32.ofNat_add _ 1).symm
    rw [membrane_of_find? hlord, hadd]
    show store.depthFrom fuel (.ofNat (above + 1 + 1)) lord.parent = _
    rw [hnext, Nat.add_right_comm, Nat.add_assoc]

/-- **The depth of a membrane is the length of the path to it.** -/
theorem Path.depth_eq (hpath : store.Path path id) (h : store.Forest) :
    store.depth id = .ok (.ofNat path.length) := by
  obtain ⟨membrane, hfind⟩ := contains_iff.mp (hpath.live h id hpath.last_mem)
  have hsteps := hpath.length_le_size h
  have hcount := hpath.depthFrom_eq h hfind (Nat.le_succ_of_le hsteps) 0
  rw [Nat.zero_add, Nat.zero_add] at hcount
  unfold depth
  rw [membrane_of_find? hfind]
  exact hcount

theorem Path.toNat_length (hpath : store.Path path id) (h : store.Forest) :
    (UInt32.ofNat path.length).toNat = path.length :=
  Nat.mod_eq_of_lt (hpath.length_lt h)

/-! ### Shallow stores -/

/-- What owns something is not on the deepest level that the limits allow. -/
def Shallow (store : Store) : Prop :=
  ∀ path owner id, store.Path path owner → store.Owns owner id →
    path.length < store.config.limits.maxDepth.toNat

theorem shallow_empty (config : StoreConfig) (entropy : UInt64) :
    (Store.empty config entropy).Shallow :=
  fun _ _ _ _ howns => absurd howns List.not_mem_nil

/-- Where less is owned, there are no more paths. -/
theorem Path.of_ownedBy_subset (hsubset : ∀ owner, after.ownedBy owner ⊆ store.ownedBy owner)
    (hpath : after.Path path id) : store.Path path id := by
  induction hpath with
  | root hroot => exact .root (hsubset none hroot)
  | child _ howns ih => exact .child ih (hsubset (some _) howns)

theorem Shallow.of_ownedBy_subset (h : store.Shallow) (hconfig : after.config = store.config)
    (hsubset : ∀ owner, after.ownedBy owner ⊆ store.ownedBy owner) : after.Shallow := by
  intro path owner id hpath howns
  rw [hconfig]
  exact h path owner id (hpath.of_ownedBy_subset hsubset) (hsubset (some owner) howns)

theorem Shallow.put (h : store.Shallow) {membrane changed : Membrane}
    (hfind : store.membranes.find? id = some membrane)
    (hchildren : changed.children = membrane.children) : (store.put id changed).Shallow := by
  refine h.of_ownedBy_subset (put_config store id changed) fun owner => ?_
  rw [ownedBy_put hfind hchildren]
  exact List.Subset.refl _

theorem Path.of_enter (hownedBy : ∀ owner, after.ownedBy owner =
      if owner = parent then store.ownedBy owner ++ [new] else store.ownedBy owner)
    (hbarren : ∀ id, ¬ after.Owns new id) (hpath : after.Path path id) (hne : id ≠ new) :
    store.Path path id := by
  have hold : ∀ owner id, id ∈ after.ownedBy owner → id ≠ new → id ∈ store.ownedBy owner := by
    intro owner id hmem hne
    rw [hownedBy] at hmem
    split at hmem
    · exact (List.mem_append.mp hmem).resolve_right (by simpa using hne)
    · exact hmem
  induction hpath with
  | root hroot => exact .root (hold none _ hroot hne)
  | @child path owner id _ howns ih =>
    have hfertile : owner ≠ new := by
      rintro rfl
      exact hbarren id howns
    exact .child (ih hfertile) (hold (some owner) id howns hne)

/-- A membrane that enters under an owner makes no other path longer; only the depth of the owner
has to be looked at. -/
theorem Forest.shallow_enter (h : store.Forest) (hshallow : store.Shallow)
    (hconfig : after.config = store.config)
    (hownedBy : ∀ owner, after.ownedBy owner =
      if owner = parent then store.ownedBy owner ++ [⟨store.nextId⟩] else store.ownedBy owner)
    (hparent : ∀ owner path, parent = some owner → store.contains owner = true ∧
      (store.Path path owner → path.length < store.config.limits.maxDepth.toNat)) :
    after.Shallow := by
  have hnew := h.find?_nextId
  have hbarren : ∀ id, ¬ after.Owns ⟨store.nextId⟩ id := by
    intro id howns
    have hmem : id ∈ after.ownedBy (some ⟨store.nextId⟩) := howns
    rw [hownedBy] at hmem
    split at hmem
    · rename_i heq
      obtain ⟨hlive, -⟩ := hparent _ [] heq.symm
      obtain ⟨membrane, hfind⟩ := contains_iff.mp hlive
      exact Option.some_ne_none membrane (hfind.symm.trans hnew)
    · have howns : store.Owns ⟨store.nextId⟩ id := hmem
      obtain ⟨membrane, hfind⟩ := contains_iff.mp (Forest.live_of_owns howns)
      exact Option.some_ne_none membrane (hfind.symm.trans hnew)
  intro path owner id hpath howns
  have hne : owner ≠ ⟨store.nextId⟩ := by
    rintro rfl
    exact hbarren id howns
  have hbefore := hpath.of_enter hownedBy hbarren hne
  have hmem : id ∈ after.ownedBy (some owner) := howns
  rw [hconfig]
  rw [hownedBy] at hmem
  split at hmem
  · rename_i heq
    exact (hparent owner path heq.symm).2 hbefore
  · exact hshallow path owner id hbefore hmem

/-- Steps never take an owner to the deepest level. -/
theorem Forest.shallow_step (h : store.Forest) (hshallow : store.Shallow)
    (hstep : store.Step after) : after.Shallow := by
  have hconfig := hstep.config_eq
  cases hstep with
  | mutate hfind hmutates =>
    obtain ⟨-, hchildren⟩ := hmutates.place_eq
    exact hshallow.put hfind hchildren
  | install _ hfind => exact hshallow.put hfind rfl
  | spend hfind => exact hshallow.put hfind rfl
  | @root shape _ =>
    exact h.shallow_enter hshallow hconfig (ownedBy_withRoot h.find?_nextId shape) (by simp)
  | @child owner shape howner _ =>
    have hlive := live_of_checkOwner howner
    refine h.shallow_enter hshallow hconfig (ownedBy_withChild h.find?_nextId hlive shape) ?_
    rintro _ path ⟨⟩
    refine ⟨hlive, fun hpath => ?_⟩
    -- This is the depth that was checked.
    obtain ⟨_, depth, -, -, hdepth, hlt⟩ := checkOwner_eq_ok_iff.mp howner
    obtain rfl := Except.ok.inj ((hpath.depth_eq h).symm.trans hdepth)
    rwa [UInt32.lt_iff_toNat_lt, hpath.toNat_length h] at hlt
  | @destroy id membrane hfind =>
    have hid := ownerOf?_eq_some_iff.mpr ⟨membrane, hfind, rfl⟩
    refine hshallow.of_ownedBy_subset hconfig fun owner other hmem => ?_
    exact ((h.mem_ownedBy_withoutSubtree_iff hid).mp hmem).2

theorem Forest.shallow_steps (h : store.Forest) (hshallow : store.Shallow)
    (hsteps : store.Steps after) : after.Shallow := by
  induction hsteps with
  | refl => exact hshallow
  | tail hsteps hstep ih => exact (h.steps hsteps).shallow_step ih hstep

end Store

end Membranes
