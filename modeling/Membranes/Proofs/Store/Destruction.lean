import Membranes.Proofs.Exchange.Reachable
import Membranes.Proofs.Store.Census

/-!
# Destroying a subtree

* `Store.Drains` is the walk with a stack as it is meant: visits are worked off until there are none left,
  with no bound on their number. `PostOrder.drains` relates it to the recursive order, with any visits
  that are still to come; `Forest.exists_drains` says that it always ends.
* `Store.Destroys` is what a destruction answers and leaves behind, and `Forest.destroys` shows it of
  forests. In the list `Forest.pairwise_postOrder` keeps whatever owns something behind it.
-/

namespace Membranes

namespace Store

variable {store after : Store} {id : MembraneId} {membrane : Membrane} {row order : List MembraneId}
  {visits : List Visit}

/-! ### The walk without a bound -/

/-- Working off the visits one after the other comes to an end, and leaves the membranes in this order. -/
inductive Drains (store : Store) : List Visit → List MembraneId → Prop
  /-- Nothing is left to visit. -/
  | done : Drains store [] []
  /-- The children come first, and the membrane is left behind them. -/
  | enter {id : MembraneId} {visits : List Visit} {order : List MembraneId}
      (h : Drains store ((store.childrenOf id).map .enter ++ .leave id :: visits) order) :
      Drains store (.enter id :: visits) order
  /-- What was below the membrane is listed already. -/
  | leave {id : MembraneId} {visits : List Visit} {order : List MembraneId}
      (h : Drains store visits order) : Drains store (.leave id :: visits) (id :: order)

/-- A row of membranes is listed with all below them before the visits that wait behind it. -/
theorem PostOrder.drains (h : store.PostOrder row order) {rest : List MembraneId}
    (hrest : store.Drains visits rest) : store.Drains (row.map .enter ++ visits) (order ++ rest) := by
  induction h generalizing visits rest with
  | nil => exact hrest
  | @cons id row below order _ _ ihbelow ihrow =>
    -- While the children are visited, leaving the membrane and the rest of the row wait behind them.
    have hleave : store.Drains (.leave id :: (row.map .enter ++ visits)) (id :: (order ++ rest)) :=
      .leave (ihrow hrest)
    rw [List.append_assoc, List.cons_append]
    exact .enter (ihbelow hleave)

/-- **From every stack of visits the walk comes to an end.** -/
theorem Forest.exists_drains (h : store.Forest) (visits : List Visit) :
    ∃ order, store.Drains visits order := by
  induction visits with
  | nil => exact ⟨[], .done⟩
  | cons visit visits ih =>
    obtain ⟨rest, hrest⟩ := ih
    cases visit with
    | enter id =>
      obtain ⟨order, hpost⟩ := h.exists_postOrder [id]
      exact ⟨order ++ rest, hpost.drains hrest⟩
    | leave id => exact ⟨id :: rest, .leave hrest⟩

/-- The steps allotted to the walk below a membrane are as good as no bound. -/
theorem Forest.drains_descendants (h : store.Forest) (id : MembraneId) :
    store.Drains ((store.childrenOf id).map .enter) (store.descendants id) := by
  obtain ⟨order, hpost⟩ := h.exists_postOrder (store.childrenOf id)
  have hdrains := hpost.drains .done
  rwa [List.append_nil, List.append_nil, ← h.descendants_eq hpost] at hdrains

/-! ### What a destruction does -/

/-- Destroying a membrane answers these identifiers and leaves this store behind. -/
structure Destroys (store : Store) (id : MembraneId) (membrane : Membrane) (ids : List MembraneId)
    (after : Store) : Prop where
  /-- Each membrane is listed once. -/
  nodup : ids.Nodup
  /-- The list is the post-order of the subtree: below each membrane its children in their order, each
  with all below it, and then the membrane. -/
  postOrder_iff : ∀ order, store.PostOrder [id] order ↔ order = ids
  /-- The walk without a bound lists what is below the membrane, which itself comes last. -/
  drains : ∃ below, ids = below ++ [id] ∧ store.Drains ((store.childrenOf id).map .enter) below
  /-- Nothing is listed before a membrane that it reaches. -/
  owners_last : ids.Pairwise fun earlier later => ¬ store.Reaches earlier later
  /-- Listed is what the membrane reaches. -/
  mem_iff : ∀ other, other ∈ ids ↔ store.Reaches id other
  /-- What is listed was live. -/
  live : ∀ other ∈ ids, store.contains other = true
  /-- What is not listed is as live as before, and what is listed is not. -/
  contains_iff : ∀ other, after.contains other = true ↔ store.contains other = true ∧ other ∉ ids
  /-- The owner named the membrane, and names its other children in the same order. -/
  owner : ∀ owner, membrane.parent = some owner → ∃ lord,
    store.membranes.find? owner = some lord ∧ id ∈ lord.children ∧
      after.membranes.find? owner = some { lord with children := lord.children.filter (· ≠ id) }
  /-- If the membrane was a root, the other roots are there in the same order. -/
  roots : if membrane.parent = none then id ∈ store.roots ∧ after.roots = store.roots.filter (· ≠ id)
    else after.roots = store.roots
  /-- All other membranes are as they were, with their children. -/
  others : ∀ other ∉ ids, membrane.parent ≠ some other →
    after.membranes.find? other = store.membranes.find? other
  config_eq : after.config = store.config
  nextId_eq : after.nextId = store.nextId
  draws_eq : after.draws = store.draws

theorem roots_withoutSubtree (store : Store) (id : MembraneId) (owner : Option MembraneId) :
    (store.withoutSubtree id owner).roots =
      if owner = none then store.roots.filter (· ≠ id) else store.roots := by
  cases owner with
  | none => rfl
  | some owner => exact detach_roots _ id owner

theorem draws_withoutSubtree (store : Store) (id : MembraneId) (owner : Option MembraneId) :
    (store.withoutSubtree id owner).draws = store.draws := by
  unfold withoutSubtree release detach
  cases owner with
  | none => rfl
  | some owner =>
    dsimp only
    split <;> rfl

/-- The owner is older than what is destroyed, so that it loses nothing but one child. -/
theorem Forest.find?_owner_withoutSubtree (h : store.Forest) {owner : MembraneId}
    (hid : store.ownerOf? id = some (some owner)) : ∃ lord,
      store.membranes.find? owner = some lord ∧ id ∈ lord.children ∧
        (store.withoutSubtree id (some owner)).membranes.find? owner =
          some { lord with children := lord.children.filter (· ≠ id) } := by
  have howns : store.Owns owner id := h.mem_ownedBy_iff.mpr hid
  obtain ⟨lord, hlord⟩ := contains_iff.mp (live_of_owns howns)
  refine ⟨lord, hlord, childrenOf_of_find? hlord ▸ howns, ?_⟩
  rw [find?_withoutSubtree, if_neg (h.owner_stays hid), if_pos rfl, hlord]
  rfl

/-- **Destroying a membrane of a forest** lists its subtree from below, and leaves out that and no more. -/
theorem Forest.destroys (h : store.Forest) (hfind : store.membranes.find? id = some membrane) :
    store.Destroys id membrane (store.descendants id ++ [id])
      (store.withoutSubtree id membrane.parent) := by
  have hid : store.ownerOf? id = some membrane.parent := ownerOf?_eq_some_iff.mpr ⟨membrane, hfind, rfl⟩
  have hlive : store.contains id = true := contains_iff.mpr ⟨membrane, hfind⟩
  obtain ⟨below, hbelow⟩ := h.exists_postOrder (store.childrenOf id)
  have hpost : store.PostOrder [id] (store.descendants id ++ [id]) := by
    rw [h.descendants_eq hbelow]
    exact .cons hbelow .nil
  have hplace : ∀ other ∈ [id], store.ownerOf? other = some membrane.parent := by
    intro other hmem
    rw [List.mem_singleton.mp hmem]
    exact hid
  refine
    { nodup := h.nodup_descendants hfind
      postOrder_iff := fun order => ⟨fun horder => hpost.unique horder, fun heq => heq ▸ hpost⟩
      drains := ⟨_, rfl, h.drains_descendants id⟩
      owners_last := h.pairwise_postOrder hpost hplace (List.pairwise_singleton _ id)
      mem_iff := fun other => h.mem_released_iff
      live := fun other hmem => h.live_of_reaches hlive (h.mem_released_iff.mp hmem)
      contains_iff := fun other => contains_withoutSubtree
      owner := ?_
      roots := ?_
      others := ?_
      config_eq := withoutSubtree_config store id membrane.parent
      nextId_eq := withoutSubtree_nextId store id membrane.parent
      draws_eq := draws_withoutSubtree store id membrane.parent }
  · intro owner howner
    rw [howner] at hid ⊢
    exact h.find?_owner_withoutSubtree hid
  · rw [roots_withoutSubtree]
    split
    · rename_i hnone
      exact ⟨h.mem_roots_iff.mpr (hnone ▸ hid), rfl⟩
    · rfl
  · intro other hstays hother
    rw [find?_withoutSubtree, if_neg hstays, if_neg hother]

/-! ### Reachable stores -/

/-- **A live membrane of a reachable store is destroyed with its subtree and nothing else,** from below
and in the order of the children. The walk that lists the subtree ends, whatever visits it begins with. -/
theorem Reachable.destroys_subtree (h : store.Reachable) (hlive : store.contains id = true) :
    (∃ membrane ids after, store.membranes.find? id = some membrane ∧
      store.destroy id = ⟨.ok ids, after⟩ ∧ store.Destroys id membrane ids after) ∧
    ∀ visits, ∃ order, store.Drains visits order := by
  obtain ⟨membrane, hfind⟩ := contains_iff.mp hlive
  exact ⟨⟨membrane, _, _, hfind, destroy_of_find? hfind, h.forest.destroys hfind⟩, h.forest.exists_drains⟩

/-- Two trees. In the first one the root 1 owns 2 and 4, and 2 owns 3 and 5. -/
def grove : Store :=
  (Store.empty ⟨.standard, .zeros⟩ 0).after
    [.create Snapshot.pairShape, .createUnder ⟨1⟩ Snapshot.pairShape,
      .createUnder ⟨2⟩ Snapshot.pairShape, .createUnder ⟨1⟩ Snapshot.pairShape,
      .createUnder ⟨2⟩ Snapshot.pairShape, .create Snapshot.pairShape]

/-- With 2 go 3 and 5, which is younger than the sibling 4 that stays. -/
theorem Reachable.destroys_subtree_grove :
    grove.Reachable ∧ grove.contains ⟨2⟩ = true ∧ grove.childrenOf ⟨1⟩ = [⟨2⟩, ⟨4⟩] ∧
      ∃ membrane after, grove.destroy ⟨2⟩ = ⟨.ok [⟨3⟩, ⟨5⟩, ⟨2⟩], after⟩ ∧
        grove.Destroys ⟨2⟩ membrane [⟨3⟩, ⟨5⟩, ⟨2⟩] after ∧ after.ids = [⟨1⟩, ⟨4⟩, ⟨6⟩] ∧
        after.childrenOf ⟨1⟩ = [⟨4⟩] := by
  have hreachable : grove.Reachable := (Reachable.empty _ _).after _
  have hlive : grove.contains ⟨2⟩ = true := by decide +kernel
  obtain ⟨⟨membrane, ids, after, -, hdestroy, hdestroys⟩, -⟩ := hreachable.destroys_subtree hlive
  have hids : (grove.destroy ⟨2⟩).answer = .ok [⟨3⟩, ⟨5⟩, ⟨2⟩] := by decide +kernel
  have hafter : (grove.destroy ⟨2⟩).store.ids = [⟨1⟩, ⟨4⟩, ⟨6⟩] ∧
      (grove.destroy ⟨2⟩).store.childrenOf ⟨1⟩ = [⟨4⟩] := by decide +kernel
  rw [hdestroy] at hids hafter
  obtain rfl := Except.ok.inj hids
  exact ⟨hreachable, hlive, by decide +kernel, membrane, after, hdestroy, hdestroys, hafter⟩

end Store

end Membranes
