import Membranes.Proofs.Store.Subtree

/-!
# Stores stay forests

`Forest.step` keeps a store a forest through each step, and `Forest.steps` through any number of them.
Only two kinds of steps touch ownership:

* a new membrane enters behind the others with the same owner (`Forest.enter`), and is younger than all
  of them;
* a membrane goes together with everything that it reaches (`Forest.withoutSubtree`), so that neither an
  owner nor a child is left behind alone.
-/

namespace Membranes

/-- A mutation leaves a membrane in its place. -/
theorem Membrane.Mutates.place_eq {limits : Limits} {membrane changed : Membrane}
    (h : membrane.Mutates limits changed) :
    changed.parent = membrane.parent ∧ changed.children = membrane.children := by
  cases h <;> exact ⟨rfl, rfl⟩

namespace Store

open Relation

variable {store after : Store} {id : MembraneId} {parent : Option MembraneId}

theorem forest_empty (config : StoreConfig) (entropy : UInt64) :
    (Store.empty config entropy).Forest where
  toSound := sound_empty config entropy
  ascending owner := by cases owner <;> exact List.Pairwise.nil
  mem_ownedBy_iff := by
    intro owner id
    have hnobody : (Store.empty config entropy).ownedBy owner = [] := by cases owner <;> rfl
    have hnothing : (Store.empty config entropy).ownerOf? id = none := rfl
    simp [hnobody, hnothing]

/-- A store with the ownership of a forest is one. -/
theorem Forest.of_ownership (h : store.Forest) (hsound : after.Sound)
    (hownerOf : ∀ id, after.ownerOf? id = store.ownerOf? id)
    (hownedBy : ∀ owner, after.ownedBy owner = store.ownedBy owner) : after.Forest where
  toSound := hsound
  ascending owner := by rw [hownedBy]; exact h.ascending owner
  mem_ownedBy_iff := by
    intro owner id
    rw [hownedBy, hownerOf]
    exact h.mem_ownedBy_iff

theorem Forest.put (h : store.Forest) {membrane changed : Membrane}
    (hfind : store.membranes.find? id = some membrane)
    (hchanged : changed.Sound store.config.limits id) (hparent : changed.parent = membrane.parent)
    (hchildren : changed.children = membrane.children) : (store.put id changed).Forest :=
  h.of_ownership (h.toSound.put hfind hchanged) (ownerOf?_put hfind hparent)
    (ownedBy_put hfind hchildren)

/-! ### Creation -/

/-- A membrane that enters behind the others with its owner leaves a forest behind. -/
theorem Forest.enter (h : store.Forest) (hsound : after.Sound)
    (hownerOf : ∀ id, after.ownerOf? id =
      if id = ⟨store.nextId⟩ then some parent else store.ownerOf? id)
    (hownedBy : ∀ owner, after.ownedBy owner =
      if owner = parent then store.ownedBy owner ++ [⟨store.nextId⟩] else store.ownedBy owner) :
    after.Forest where
  toSound := hsound
  ascending owner := by
    rw [hownedBy]
    split
    · refine List.pairwise_append.mpr ⟨h.ascending owner, List.pairwise_singleton _ _, ?_⟩
      intro other hother new hnew
      rw [List.mem_singleton.mp hnew]
      -- Whatever is named is live, and the counter is above it.
      obtain ⟨membrane, hfind, -⟩ := ownerOf?_eq_some_iff.mp (h.mem_ownedBy_iff.mp hother)
      exact h.lt_nextId hfind
    · exact h.ascending owner
  mem_ownedBy_iff := by
    intro owner id
    have hold : id ∈ store.ownedBy owner ↔ store.ownerOf? id = some owner := h.mem_ownedBy_iff
    have hnew : store.ownerOf? ⟨store.nextId⟩ = none := by
      unfold ownerOf?
      rw [h.find?_nextId]
      rfl
    rw [hownedBy, hownerOf]
    by_cases hid : id = ⟨store.nextId⟩
    · rw [hid, hnew] at hold
      rw [hid, if_pos rfl]
      split
      · rename_i heq
        simp [heq]
      · rename_i hne
        rw [hold]
        simp [Ne.symm hne]
    · rw [if_neg hid]
      split
      · rw [List.mem_append, List.mem_singleton, hold]
        simp [hid]
      · exact hold

theorem Forest.withRoot (h : store.Forest) {shape : Shape} (hroom : store.checkRoom shape = .ok ()) :
    (store.withRoot shape).Forest := by
  have hstep : (store.withRoot shape).Sound := h.toSound.step (.root hroom)
  exact h.enter hstep (ownerOf?_withFresh shape none) (ownedBy_withRoot h.find?_nextId shape)

theorem Forest.withChild (h : store.Forest) {owner : MembraneId} {shape : Shape}
    (howner : store.checkOwner owner = .ok ()) (hroom : store.checkRoom shape = .ok ()) :
    (store.withChild owner shape).Forest := by
  have hstep : (store.withChild owner shape).Sound := h.toSound.step (.child howner hroom)
  have hownerOf : ∀ id, (store.withChild owner shape).ownerOf? id =
      if id = ⟨store.nextId⟩ then some (some owner) else store.ownerOf? id :=
    fun id => (ownerOf?_attach owner _ id).trans (ownerOf?_withFresh shape (some owner) id)
  exact h.enter hstep hownerOf (ownedBy_withChild h.find?_nextId (live_of_checkOwner howner) shape)

/-! ### Destruction -/

/-- A membrane is reached from above through its owner. -/
theorem Forest.reaches_iff_owner (h : store.Forest) {other : MembraneId} {owner : Option MembraneId}
    (howner : store.ownerOf? other = some owner) :
    store.Reaches id other ↔ other = id ∨ ∃ above, owner = some above ∧ store.Reaches id above := by
  have howns : ∀ above, owner = some above ↔ store.Owns above other := by
    intro above
    unfold Owns
    rw [← Option.some_inj, ← howner]
    exact h.mem_ownedBy_iff.symm
  constructor
  · intro hreaches
    rcases hreaches.cases_tail with heq | ⟨above, hbefore, hlast⟩
    · exact Or.inl heq
    · exact Or.inr ⟨above, (howns above).mpr hlast, hbefore⟩
  · rintro (rfl | ⟨above, heq, hbefore⟩)
    · exact .refl
    · exact hbefore.tail ((howns above).mp heq)

theorem Forest.ownerOf?_withoutSubtree_iff (h : store.Forest) {other : MembraneId}
    {owner : Option MembraneId} :
    (store.withoutSubtree id parent).ownerOf? other = some owner ↔
      ¬ store.Reaches id other ∧ store.ownerOf? other = some owner := by
  rw [ownerOf?_withoutSubtree, ← h.mem_descendants_iff]
  split
  · rename_i hgone
    simp [hgone]
  · rename_i hstays
    simp [hstays]

theorem Forest.mem_ownedBy_withoutSubtree_iff (h : store.Forest)
    (hid : store.ownerOf? id = some parent) {other : MembraneId} {owner : Option MembraneId} :
    other ∈ (store.withoutSubtree id parent).ownedBy owner ↔
      (other ≠ id ∧ ∀ above, owner = some above → ¬ store.Reaches id above) ∧
        other ∈ store.ownedBy owner := by
  have hgone : owner ∈ (id :: store.descendants id).map some ↔
      ∃ above, owner = some above ∧ store.Reaches id above := by
    simp only [List.mem_map, List.mem_cons, h.mem_descendants_iff]
    exact ⟨fun ⟨above, hreaches, heq⟩ => ⟨above, heq.symm, hreaches⟩,
      fun ⟨above, heq, hreaches⟩ => ⟨above, hreaches, heq.symm⟩⟩
  -- Only its own owner names the membrane that is destroyed.
  have hnamed : owner ≠ parent → other ∈ store.ownedBy owner → other ≠ id := by
    rintro hne hmem rfl
    exact hne (Option.some.inj ((h.mem_ownedBy_iff.mp hmem).symm.trans hid))
  rw [ownedBy_withoutSubtree]
  split
  · rename_i hmem
    obtain ⟨above, heq, hreaches⟩ := hgone.mp hmem
    exact ⟨fun hmem => absurd hmem List.not_mem_nil,
      fun ⟨⟨_, hnot⟩, _⟩ => absurd hreaches (hnot above heq)⟩
  · rename_i hnot
    have hapart : ∀ above, owner = some above → ¬ store.Reaches id above :=
      fun above heq hreaches => hnot (hgone.mpr ⟨above, heq, hreaches⟩)
    split
    · rw [List.mem_filter, decide_eq_true_iff, and_comm]
      exact and_congr_left fun _ => ⟨fun hne => ⟨hne, hapart⟩, fun hboth => hboth.1⟩
    · rename_i hne
      exact ⟨fun hmem => ⟨⟨hnamed hne hmem, hapart⟩, hmem⟩, fun ⟨_, hmem⟩ => hmem⟩

/-- Destroying a membrane and all that it reaches leaves a forest behind. -/
theorem Forest.withoutSubtree (h : store.Forest) (hid : store.ownerOf? id = some parent) :
    (store.withoutSubtree id parent).Forest where
  toSound := ((h.toSound.release _).detach _ _).release _
  ascending owner := by
    rw [ownedBy_withoutSubtree]
    split
    · exact List.Pairwise.nil
    · split
      · exact (h.ascending owner).filter _
      · exact h.ascending owner
  mem_ownedBy_iff := by
    intro owner other
    rw [h.mem_ownedBy_withoutSubtree_iff hid, h.ownerOf?_withoutSubtree_iff, h.mem_ownedBy_iff]
    apply and_congr_left
    intro howner
    rw [h.reaches_iff_owner howner]
    simp

/-! ### Steps -/

/-- **Every step leaves a forest behind.** -/
theorem Forest.step (h : store.Forest) (hstep : store.Step after) : after.Forest := by
  cases hstep with
  | mutate hfind hmutates =>
    obtain ⟨hparent, hchildren⟩ := hmutates.place_eq
    exact h.put hfind ((h.membrane hfind).mutates hmutates) hparent hchildren
  | install version hfind hadmits hsize =>
    exact h.put hfind (((h.membrane hfind).withContent hadmits hsize).withVersion version) rfl rfl
  | spend hfind hamount => exact h.put hfind ((h.membrane hfind).withEnergy _) rfl rfl
  | root hroom => exact h.withRoot hroom
  | child howner hroom => exact h.withChild howner hroom
  | destroy hfind => exact h.withoutSubtree (ownerOf?_eq_some_iff.mpr ⟨_, hfind, rfl⟩)

theorem Forest.steps (h : store.Forest) (hsteps : store.Steps after) : after.Forest := by
  induction hsteps with
  | refl => exact h
  | tail _ hstep ih => exact ih.step hstep

end Store

end Membranes
