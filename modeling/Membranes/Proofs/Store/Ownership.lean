import Membranes.Proofs.Store.Sound

/-!
# The two sides of ownership

A store records ownership twice: a membrane names its owner, and the owner names the membrane among its
children, or the store does so among its roots. `Store.ownerOf?` and `Store.ownedBy` are the two sides,
and every change of a store is described here by what it does to each of them. A root is owned by
`none`, so that roots and children are one case.
-/

namespace Membranes

namespace Store

/-- The owner that a live membrane names; of a membrane that is not live there is nothing to say. -/
def ownerOf? (store : Store) (id : MembraneId) : Option (Option MembraneId) :=
  (store.membranes.find? id).map (·.parent)

/-- The membranes that an owner names, or the store among its roots. -/
def ownedBy (store : Store) : Option MembraneId → List MembraneId
  | none => store.roots
  | some owner => store.childrenOf owner

variable {store after : Store} {id : MembraneId} {membrane : Membrane}

theorem ownerOf?_eq_some_iff {owner : Option MembraneId} :
    store.ownerOf? id = some owner ↔
      ∃ membrane, store.membranes.find? id = some membrane ∧ membrane.parent = owner := by
  unfold ownerOf?
  rw [Option.map_eq_some_iff]

theorem childrenOf_eq (store : Store) (id : MembraneId) :
    store.childrenOf id = ((store.membranes.find? id).map (·.children)).getD [] := by
  unfold childrenOf
  cases store.membranes.find? id with
  | none => rfl
  | some membrane => rfl

theorem childrenOf_of_find? (h : store.membranes.find? id = some membrane) :
    store.childrenOf id = membrane.children := by
  rw [childrenOf_eq, h]
  rfl

/-! ### Changes that leave ownership alone -/

theorem ownerOf?_put {changed : Membrane} (hfind : store.membranes.find? id = some membrane)
    (hparent : changed.parent = membrane.parent) (other : MembraneId) :
    (store.put id changed).ownerOf? other = store.ownerOf? other := by
  unfold ownerOf?
  rw [find?_put]
  split
  · rename_i heq
    rw [heq, hfind, Option.map_some, Option.map_some, hparent]
  · rfl

theorem ownedBy_put {changed : Membrane} (hfind : store.membranes.find? id = some membrane)
    (hchildren : changed.children = membrane.children) (owner : Option MembraneId) :
    (store.put id changed).ownedBy owner = store.ownedBy owner := by
  cases owner with
  | none => rfl
  | some other =>
    show (store.put id changed).childrenOf other = store.childrenOf other
    rw [childrenOf_eq, childrenOf_eq, find?_put]
    split
    · rename_i heq
      rw [heq, hfind, Option.map_some, Option.map_some, hchildren]
    · rfl

/-! ### Another list of children -/

/-- The store in which the children of one membrane, if it is live, are replaced. -/
def Renames (store after : Store) (owner : MembraneId) (f : List MembraneId → List MembraneId) : Prop :=
  ∀ other, after.membranes.find? other =
    if other = owner then
      (store.membranes.find? owner).map fun membrane => { membrane with children := f membrane.children }
    else store.membranes.find? other

variable {owner : MembraneId} {f : List MembraneId → List MembraneId}

theorem Renames.ownerOf?_eq (h : store.Renames after owner f) (other : MembraneId) :
    after.ownerOf? other = store.ownerOf? other := by
  unfold ownerOf?
  rw [h other]
  split
  · rename_i heq
    rw [heq, Option.map_map]
    rfl
  · rfl

theorem Renames.childrenOf_eq (h : store.Renames after owner f)
    (hlive : store.contains owner = true ∨ f [] = []) (other : MembraneId) :
    after.childrenOf other =
      if other = owner then f (store.childrenOf other) else store.childrenOf other := by
  rw [Store.childrenOf_eq, Store.childrenOf_eq, h other]
  split
  · rename_i heq
    rw [heq, Option.map_map]
    cases hfind : store.membranes.find? owner with
    | some membrane => rfl
    | none =>
      have hdead : store.contains owner = false := by
        unfold Store.contains IdMap.contains
        rw [hfind]
        rfl
      exact (hlive.resolve_left (by simp [hdead])).symm
  · rfl

theorem Renames.find?_eq_some (h : store.Renames after owner f) {current : Membrane}
    (hfind : after.membranes.find? id = some current) :
    ∃ before children, store.membranes.find? id = some before ∧ current = { before with children } := by
  rw [h id] at hfind
  split at hfind
  · rename_i heq
    obtain ⟨before, hbefore, rfl⟩ := Option.map_eq_some_iff.mp hfind
    exact ⟨before, _, heq ▸ hbefore, rfl⟩
  · exact ⟨current, current.children, hfind, rfl⟩

/-! ### Creation -/

theorem ownerOf?_withFresh (shape : Shape) (parent : Option MembraneId) (other : MembraneId) :
    (store.withFresh shape parent).ownerOf? other =
      if other = ⟨store.nextId⟩ then some parent else store.ownerOf? other := by
  unfold ownerOf?
  rw [find?_withFresh]
  split
  · rfl
  · rfl

/-- The new membrane owns nothing, and nothing was owned under its identifier before. -/
theorem ownedBy_withFresh (hnew : store.membranes.find? ⟨store.nextId⟩ = none) (shape : Shape)
    (parent other : Option MembraneId) :
    (store.withFresh shape parent).ownedBy other = store.ownedBy other := by
  cases other with
  | none => rfl
  | some other =>
    show (store.withFresh shape parent).childrenOf other = store.childrenOf other
    rw [childrenOf_eq, childrenOf_eq, find?_withFresh]
    split
    · rename_i heq
      rw [heq, hnew]
      rfl
    · rfl

theorem ownerOf?_attach (owner child other : MembraneId) :
    (store.attach owner child).ownerOf? other = store.ownerOf? other := by
  have hrenames : store.Renames (store.attach owner child) owner (· ++ [child]) :=
    store.find?_attach owner child
  exact hrenames.ownerOf?_eq other

theorem ownedBy_attach (hlive : store.contains owner = true) (child : MembraneId)
    (other : Option MembraneId) :
    (store.attach owner child).ownedBy other =
      if other = some owner then store.ownedBy other ++ [child] else store.ownedBy other := by
  cases other with
  | none => exact attach_roots store owner child
  | some other =>
    have hrenames : store.Renames (store.attach owner child) owner (· ++ [child]) :=
      store.find?_attach owner child
    have hchildren := hrenames.childrenOf_eq (Or.inl hlive) other
    simpa only [ownedBy, Option.some.injEq] using hchildren

theorem ownedBy_withRoot (hnew : store.membranes.find? ⟨store.nextId⟩ = none) (shape : Shape)
    (other : Option MembraneId) :
    (store.withRoot shape).ownedBy other =
      if other = none then store.ownedBy other ++ [⟨store.nextId⟩] else store.ownedBy other := by
  have hfresh := ownedBy_withFresh hnew shape none other
  cases other with
  | none => rfl
  | some other => exact hfresh

theorem ownedBy_withChild (hnew : store.membranes.find? ⟨store.nextId⟩ = none)
    (hlive : store.contains owner = true) (shape : Shape) (other : Option MembraneId) :
    (store.withChild owner shape).ownedBy other =
      if other = some owner then store.ownedBy other ++ [⟨store.nextId⟩] else store.ownedBy other := by
  have hlive' : (store.withFresh shape (some owner)).contains owner = true := contains_withFresh hlive
  have hattach := ownedBy_attach hlive' ⟨store.nextId⟩ other
  rwa [ownedBy_withFresh hnew shape (some owner)] at hattach

/-! ### Destruction -/

theorem ownerOf?_release (ids : List MembraneId) (other : MembraneId) :
    (store.release ids).ownerOf? other = if other ∈ ids then none else store.ownerOf? other := by
  unfold ownerOf?
  rw [find?_release]
  split
  · rfl
  · rfl

theorem ownedBy_release (ids : List MembraneId) (other : Option MembraneId) :
    (store.release ids).ownedBy other =
      if other ∈ ids.map some then [] else store.ownedBy other := by
  cases other with
  | none => simp [ownedBy, release]
  | some other =>
    have hchildren : (store.release ids).childrenOf other =
        if other ∈ ids then [] else store.childrenOf other := by
      rw [childrenOf_eq, childrenOf_eq, find?_release]
      split
      · rfl
      · rfl
    simpa [ownedBy] using hchildren

theorem renames_detach (store : Store) (child owner : MembraneId) :
    store.Renames (store.detach child (some owner)) owner (·.filter (· ≠ child)) := by
  intro other
  unfold Store.detach
  dsimp only
  cases hfind : store.membranes.find? owner with
  | none =>
    show store.membranes.find? other = if other = owner then none else store.membranes.find? other
    split
    · rename_i heq
      rw [heq, hfind]
    · rfl
  | some membrane => exact find?_put store owner other _

theorem ownerOf?_detach (child : MembraneId) (owner : Option MembraneId) (other : MembraneId) :
    (store.detach child owner).ownerOf? other = store.ownerOf? other := by
  cases owner with
  | none => rfl
  | some owner => exact (store.renames_detach child owner).ownerOf?_eq other

theorem detach_roots (store : Store) (child owner : MembraneId) :
    (store.detach child (some owner)).roots = store.roots := by
  unfold Store.detach
  dsimp only
  split
  · rfl
  · rfl

theorem ownedBy_detach (child : MembraneId) (owner other : Option MembraneId) :
    (store.detach child owner).ownedBy other =
      if other = owner then (store.ownedBy other).filter (· ≠ child) else store.ownedBy other := by
  cases owner with
  | none =>
    cases other with
    | none => rfl
    | some other => rfl
  | some owner =>
    cases other with
    | none => exact store.detach_roots child owner
    | some other =>
      have hchildren :=
        (store.renames_detach child owner).childrenOf_eq (Or.inr List.filter_nil) other
      simpa only [ownedBy, Option.some.injEq] using hchildren

theorem find?_detach (store : Store) (child : MembraneId) (owner : Option MembraneId)
    (other : MembraneId) :
    (store.detach child owner).membranes.find? other =
      if owner = some other then
        (store.membranes.find? other).map fun membrane =>
          { membrane with children := membrane.children.filter (· ≠ child) }
      else store.membranes.find? other := by
  cases owner with
  | none => rfl
  | some owner =>
    rw [store.renames_detach child owner other]
    by_cases heq : other = owner
    · rw [heq, if_pos rfl, if_pos rfl]
    · rw [if_neg heq, if_neg fun h => heq (Option.some.inj h).symm]

/-- A destruction leaves nothing of the subtree, and of the rest all but one place in a list of
children. -/
theorem find?_withoutSubtree (store : Store) (id : MembraneId) (owner : Option MembraneId)
    (other : MembraneId) :
    (store.withoutSubtree id owner).membranes.find? other =
      if other ∈ store.descendants id ++ [id] then none
      else if owner = some other then
        (store.membranes.find? other).map fun membrane =>
          { membrane with children := membrane.children.filter (· ≠ id) }
      else store.membranes.find? other := by
  unfold withoutSubtree
  rw [find?_release, find?_detach, find?_release]
  by_cases hbelow : other ∈ store.descendants id
  · simp [hbelow]
  · by_cases hid : other = id
    · simp [hid]
    · simp [hbelow, hid]

/-- What is still there after a destruction was there before, if with other children. -/
theorem find?_withoutSubtree_eq_some {gone : MembraneId} {owner : Option MembraneId} {current : Membrane}
    (h : (store.withoutSubtree gone owner).membranes.find? id = some current) :
    ∃ before children, store.membranes.find? id = some before ∧ current = { before with children } := by
  rw [find?_withoutSubtree] at h
  split at h
  · exact nomatch h
  · split at h
    · obtain ⟨before, hbefore, rfl⟩ := Option.map_eq_some_iff.mp h
      exact ⟨before, _, hbefore, rfl⟩
    · exact ⟨current, current.children, h, rfl⟩

theorem ownerOf?_withoutSubtree (owner : Option MembraneId) (other : MembraneId) :
    (store.withoutSubtree id owner).ownerOf? other =
      if other = id ∨ other ∈ store.descendants id then none else store.ownerOf? other := by
  unfold withoutSubtree
  rw [ownerOf?_release, ownerOf?_detach, ownerOf?_release]
  by_cases hid : other = id <;> simp [hid]

theorem ownedBy_withoutSubtree (owner other : Option MembraneId) :
    (store.withoutSubtree id owner).ownedBy other =
      if other ∈ (id :: store.descendants id).map some then []
      else if other = owner then (store.ownedBy other).filter (· ≠ id)
      else store.ownedBy other := by
  unfold withoutSubtree
  rw [ownedBy_release, ownedBy_detach, ownedBy_release]
  by_cases hid : other = some id
  · simp [hid]
  · by_cases hbelow : other ∈ (store.descendants id).map some
    · simp [hbelow]
    · simp [hid, hbelow]

end Store

end Membranes
