import Membranes.Proofs.Exchange.Delivery
import Membranes.Proofs.Store.Forest

/-!
# Reachable stores

* `Store.Reachable` are the stores that operations and snapshots from elsewhere can lead to. Steps lead
  to them from a store without membranes (`Reachable.exists_steps`), so they are sound
  (`Reachable.sound`), and they are forests (`Reachable.forest`).
* `Reachable.ownership` says what the latter means for roots, children and owners.
-/

namespace Membranes

namespace Engine

variable {σ : Type} {engine engine' : Engine σ} {store after : Store} {id : MembraneId}
  {remote : Snapshot} {strategy : ConflictStrategy}

theorem Absorbs.steps {delivery : Delivery σ (Receipt × Snapshot)}
    (h : engine.Absorbs store id remote strategy delivery) : store.Steps delivery.store := by
  cases h with
  | corrupt => exact .refl
  | refused => exact .refl
  | settled hremote hmine hsettlement hcarried =>
    exact hcarried.steps hmine (hsettlement ▸ Snapshot.merge_settles _ _ _) hremote

theorem receiveWith_store [Outbound σ] (engine : Engine σ) (store : Store) (id : MembraneId)
    (remote : Snapshot) (strategy : ConflictStrategy) :
    (engine.receiveWith store id remote strategy).store =
      (engine.absorb store id remote strategy).store := by
  cases habsorb : engine.absorb store id remote strategy with
  | mk answer engine' after =>
    cases answer with
    | error fault => rw [receiveWith_of_error habsorb]
    | ok absorbed =>
      obtain ⟨_, _, _, _, hreceive⟩ := receiveWith_of_ok habsorb
      rw [hreceive]

theorem steps_receiveWith [Outbound σ] (engine : Engine σ) (store : Store) (id : MembraneId)
    (remote : Snapshot) (strategy : ConflictStrategy) :
    store.Steps (engine.receiveWith store id remote strategy).store := by
  rw [receiveWith_store]
  exact (engine.absorb_absorbs store id remote strategy).steps

end Engine

namespace Store

/-- The stores that operations and snapshots from elsewhere can lead to. -/
inductive Reachable : Store → Prop
  /-- A store without membranes. -/
  | empty (config : StoreConfig) (entropy : UInt64) : Reachable (.empty config entropy)
  /-- What an operation leaves behind, whatever it answers. -/
  | operation {store : Store} (h : Reachable store) (operation : Operation) :
      Reachable (operation.run store).store
  /-- What a snapshot leaves behind, whatever the answer is. -/
  | delivery {σ : Type} [Outbound σ] {store : Store} (h : Reachable store) (engine : Engine σ)
      (id : MembraneId) (remote : Snapshot) (strategy : ConflictStrategy) :
      Reachable (engine.receiveWith store id remote strategy).store

variable {store : Store}

theorem Reachable.exists_steps (h : store.Reachable) :
    ∃ config entropy, (Store.empty config entropy).Steps store := by
  induction h with
  | empty config entropy => exact ⟨config, entropy, .refl⟩
  | operation _ operation ih =>
    obtain ⟨config, entropy, hsteps⟩ := ih
    exact ⟨config, entropy, hsteps.trans (steps_run operation _)⟩
  | delivery _ engine id remote strategy ih =>
    obtain ⟨config, entropy, hsteps⟩ := ih
    exact ⟨config, entropy, hsteps.trans (engine.steps_receiveWith _ id remote strategy)⟩

/-- **Every reachable store is sound.** -/
theorem Reachable.sound (h : store.Reachable) : store.Sound := by
  obtain ⟨config, entropy, hsteps⟩ := h.exists_steps
  exact (sound_empty config entropy).steps hsteps

/-- **Every reachable store is a forest.** -/
theorem Reachable.forest (h : store.Reachable) : store.Forest := by
  obtain ⟨config, entropy, hsteps⟩ := h.exists_steps
  exact (forest_empty config entropy).steps hsteps

theorem Reachable.after (h : store.Reachable) (operations : List Operation) :
    (store.after operations).Reachable := by
  induction operations generalizing store with
  | nil => exact h
  | cons operation operations ih => exact ih (h.operation operation)

/-- The membrane under the one of `Store.ofPair`. -/
def nestedPair : Membrane :=
  .fresh ⟨2⟩ Snapshot.pairShape #[.zero, .zero] 100 (some ⟨1⟩)

/-- A store with a membrane of two elements under another one. -/
def nested : Store := (Store.ofPair 3).after [.createUnder ⟨1⟩ Snapshot.pairShape]

theorem reachable_nested : nested.Reachable := ((Reachable.empty _ _).after _).after _

/-! ### Ownership -/

/-- **Ownership in a reachable store.** The roots are the live membranes without an owner, and the
children of a live membrane are the live membranes that it owns, both in the order of creation. A live
membrane stands under its own identifier, which the counter has passed; its owner is live and older; and
one path leads to it, from one root. -/
theorem Reachable.ownership (h : store.Reachable) :
    (store.roots.Pairwise (· < ·) ∧
      ∀ id, id ∈ store.roots ↔
        ∃ root, store.membranes.find? id = some root ∧ root.parent = none) ∧
    (∀ id membrane, store.membranes.find? id = some membrane →
      (membrane.children.Pairwise (· < ·) ∧
        ∀ other, other ∈ membrane.children ↔
          ∃ child, store.membranes.find? other = some child ∧ child.parent = some id) ∧
      (∀ owner, membrane.parent = some owner → store.contains owner = true ∧ owner < id) ∧
      membrane.id = id ∧ id.value < store.nextId ∧ ∃! path, store.Path path id) := by
  have hforest := h.forest
  refine ⟨⟨hforest.ascending none, ?_⟩, ?_⟩
  · intro id
    rw [← ownerOf?_eq_some_iff]
    exact hforest.mem_roots_iff
  · intro id membrane hfind
    have hsound := hforest.membrane hfind
    have hchildren : store.ownedBy (some id) = membrane.children := childrenOf_of_find? hfind
    refine ⟨⟨?_, ?_⟩, ?_, hsound.id_eq, hforest.lt_nextId hfind, ?_⟩
    · rw [← hchildren]
      exact hforest.ascending (some id)
    · intro other
      rw [← ownerOf?_eq_some_iff, ← hchildren]
      exact hforest.mem_ownedBy_iff
    · intro owner hparent
      have howns : store.Owns owner id :=
        hforest.mem_ownedBy_iff.mpr (ownerOf?_eq_some_iff.mpr ⟨membrane, hfind, hparent⟩)
      exact ⟨Forest.live_of_owns howns, hsound.owner_lt owner hparent⟩
    · exact hforest.existsUnique_path (contains_iff.mpr ⟨membrane, hfind⟩)

/-- The store in which a copy was put beside the lower membrane of `Store.nested`, and that membrane
destroyed. -/
def replanted : Store :=
  ((Engine.splitting.receiveWith nested ⟨2⟩ (.ofPair 7 1 0x3F800000) .split).store).after
    [.destroy ⟨2⟩]

/-- The copy has taken the place of the membrane that was destroyed, under the same owner. -/
theorem Reachable.ownership_replanted :
    replanted.Reachable ∧ replanted.ids = [⟨1⟩, ⟨3⟩] ∧ replanted.roots = [⟨1⟩] ∧
      replanted.childrenOf ⟨1⟩ = [⟨3⟩] ∧ replanted.contains ⟨3⟩ = true ∧
      ∃! path, replanted.Path path ⟨3⟩ := by
  have hreachable : replanted.Reachable :=
    (reachable_nested.delivery Engine.splitting ⟨2⟩ (.ofPair 7 1 0x3F800000) .split).after _
  have hlive : replanted.contains ⟨3⟩ = true := by decide +kernel
  obtain ⟨membrane, hfind⟩ := contains_iff.mp hlive
  obtain ⟨-, -, -, -, hpath⟩ := hreachable.ownership.2 ⟨3⟩ membrane hfind
  refine ⟨hreachable, ?_, ?_, ?_, hlive, hpath⟩
  · decide +kernel
  · decide +kernel
  · decide +kernel

end Store

end Membranes
