import Membranes.Proofs.Exchange.Room
import Membranes.Proofs.Exchange.Stale

/-!
# What calls create and release

* `Answer.createdIds` and `Answer.releasedIds`: the membranes that a call has made and destroyed, as the
  answer tells.
* `Store.Turnover`: the counter has given out the identifier of what was created, and what is live is
  what was live or created, and not released.
* `Operation.turnover`, `Engine.call_turnover`: so it is with every call.
-/

namespace Membranes

/-- The membrane that was created. -/
def Reply.createdIds : Reply → List MembraneId
  | .created id => [id]
  | _ => []

/-- The membranes that were destroyed. -/
def Reply.releasedIds : Reply → List MembraneId
  | .released ids => ids
  | _ => []

/-- The membrane that a call has created: as it was asked for, or for a copy to be kept. -/
def Answer.createdIds : Answer → List MembraneId
  | .operated (.ok reply) => reply.createdIds
  | .received (.ok receipt) => receipt.sibling.toList
  | _ => []

/-- The membranes that a call has destroyed. -/
def Answer.releasedIds : Answer → List MembraneId
  | .operated (.ok reply) => reply.releasedIds
  | _ => []

namespace Store

/-- What happens to the counter and to the live membranes of a store. -/
structure Turnover (store after : Store) (created released : List MembraneId) : Prop where
  /-- Nothing is created and the counter stays, or one membrane is and the counter goes one up. -/
  counter : created = [] ∧ after.nextId = store.nextId ∨
    created = [⟨store.nextId⟩] ∧ store.nextId.toNat + 1 < UInt32.size ∧
      after.nextId = store.nextId + 1
  contains_iff : ∀ id, after.contains id = true ↔
    (store.contains id = true ∨ id ∈ created) ∧ id ∉ released
  live : ∀ id ∈ released, store.contains id = true

variable {store after : Store} {id : MembraneId} {parent : Option MembraneId} {shape : Shape}

theorem turnover_of_contains (hnext : after.nextId = store.nextId)
    (hcontains : ∀ id, after.contains id = true ↔ store.contains id = true) :
    store.Turnover after [] [] where
  counter := Or.inl ⟨rfl, hnext⟩
  contains_iff id := by simp [hcontains id]
  live id hmem := nomatch hmem

theorem turnover_self (store : Store) : store.Turnover store [] [] :=
  turnover_of_contains rfl fun _ => Iff.rfl

theorem contains_withNew_iff :
    (store.withNew parent shape).contains id = true ↔
      id = ⟨store.nextId⟩ ∨ store.contains id = true := by
  cases parent with
  | none => exact contains_withFresh_iff
  | some owner => exact contains_attach_iff.trans contains_withFresh_iff

theorem HasRoomBeside.turnover (h : store.HasRoomBeside parent shape) :
    store.Turnover (store.withNew parent shape) [⟨store.nextId⟩] [] where
  counter := Or.inr ⟨rfl, (checkRoom_eq_ok_iff.mp h.room).2.2, store.withNew_nextId parent shape⟩
  contains_iff id := by rw [contains_withNew_iff]; simp [or_comm]
  live id hmem := nomatch hmem

theorem Forest.turnover_withoutSubtree (h : store.Forest) {membrane : Membrane}
    (hfind : store.membranes.find? id = some membrane) :
    store.Turnover (store.withoutSubtree id membrane.parent) [] (store.descendants id ++ [id]) where
  counter := Or.inl ⟨rfl, withoutSubtree_nextId _ _ _⟩
  contains_iff other := by rw [contains_withoutSubtree]; simp
  live other hmem :=
    h.live_of_reaches (contains_iff.mpr ⟨membrane, hfind⟩) (h.mem_released_iff.mp hmem)

end Store

/-! ### Operations -/

namespace Operation

variable {store : Store} {operation : Operation}

theorem spares_of_not_structural (h : operation.isStructural = false) : operation.Spares := by
  cases operation with
  | destroy => exact nomatch h
  | _ => trivial

/-- Other requests than to create or to destroy are answered in another way. -/
theorem reply_of_not_structural (h : operation.isStructural = false) {reply : Reply}
    (hanswer : (operation.run store).answer = .ok reply) :
    reply.createdIds = [] ∧ reply.releasedIds = [] := by
  cases operation with
  | create | createUnder | destroy => exact nomatch h
  | _ =>
    obtain ⟨_, -, rfl⟩ := map_eq_ok_iff.mp hanswer
    exact ⟨rfl, rfl⟩

/-- What is neither creation nor destruction leaves everything live that was, and nothing else. -/
theorem turnover_of_not_structural (h : operation.isStructural = false) {reply : Reply}
    (hanswer : (operation.run store).answer = .ok reply) :
    store.Turnover (operation.run store).store [] [] := by
  have hwrites := (operation.within h).writes store
  refine Store.turnover_of_contains hwrites.nextId_eq.symm fun id => ?_
  by_cases hnamed : id ∈ operation.named
  · have hlive := live_of_run hanswer hnamed
    exact ⟨fun _ => hlive, fun _ => contains_run (spares_of_not_structural h) hlive⟩
  · rw [Store.contains_iff, Store.contains_iff, hwrites.find?_eq id hnamed]

/-- What an operation that is carried out does to the membranes of a store. -/
inductive Effect (operation : Operation) (store : Store) : Reply → Store → Prop
  | creates (parent : Option MembraneId) (shape : Shape) (hroom : store.HasRoomBeside parent shape) :
      Effect operation store (.created ⟨store.nextId⟩) (store.withNew parent shape)
  | destroys (id : MembraneId) (membrane : Membrane)
      (hfind : store.membranes.find? id = some membrane) :
      Effect operation store (.released (store.descendants id ++ [id]))
        (store.withoutSubtree id membrane.parent)
  | keeps (hstructural : operation.isStructural = false) {reply : Reply} {after : Store}
      (hrun : operation.run store = ⟨.ok reply, after⟩) : Effect operation store reply after

theorem run_effect (operation : Operation) (store : Store) :
    (operation.run store).Atomically store (operation.Effect store) := by
  cases hstructural : operation.isStructural with
  | false =>
    rcases (operation.run_atomically store).cases with ⟨refusal, hrun⟩ | ⟨reply, after, hrun, -⟩
    · rw [hrun]
      exact rfl
    · have hkeeps := Effect.keeps hstructural hrun
      rwa [hrun]
  | true =>
    cases operation with
    | create shape =>
      show ((store.create shape).reply .created).Atomically store _
      rcases (Store.create_atomically shape).cases with ⟨refusal, hrun⟩ | ⟨_, _, hrun, hroom, rfl, rfl⟩
      · rw [hrun]
        exact rfl
      · rw [hrun]
        exact .creates none shape ⟨nofun, hroom⟩
    | createUnder owner shape =>
      show ((store.createUnder owner shape).reply .created).Atomically store _
      rcases (Store.createUnder_atomically owner shape).cases with
        ⟨refusal, hrun⟩ | ⟨_, _, hrun, howner, hroom, rfl, rfl⟩
      · rw [hrun]
        exact rfl
      · rw [hrun]
        have hbeside : store.HasRoomBeside (some owner) shape := by
          refine ⟨?_, hroom⟩
          rintro _ ⟨⟩
          exact howner
        exact .creates (some owner) shape hbeside
    | destroy id =>
      show ((store.destroy id).reply .released).Atomically store _
      rcases (Store.destroy_atomically id).cases with
        ⟨refusal, hrun⟩ | ⟨_, _, hrun, membrane, hfind, rfl, rfl⟩
      · rw [hrun]
        exact rfl
      · rw [hrun]
        exact .destroys id membrane hfind
    | _ => exact nomatch hstructural

/-- **What an operation creates and releases is what it answers.** -/
theorem turnover (operation : Operation) (hforest : store.Forest) :
    (operation.run store).Atomically store fun reply after =>
      store.Turnover after reply.createdIds reply.releasedIds := by
  refine (operation.run_effect store).imp fun reply after heffect => ?_
  cases heffect with
  | creates parent shape hroom => exact hroom.turnover
  | destroys id membrane hfind => exact hforest.turnover_withoutSubtree hfind
  | keeps hstructural hrun =>
    have hanswer := congrArg Outcome.answer hrun
    have hturnover := turnover_of_not_structural hstructural hanswer
    obtain ⟨hcreated, hreleased⟩ := reply_of_not_structural hstructural hanswer
    rw [hrun] at hturnover
    rwa [hcreated, hreleased]

end Operation

/-! ### Calls -/

namespace Store

variable {store after : Store} {id : MembraneId} {mine : Membrane} {settlement : Settlement}
  {sibling : Option MembraneId} {remote : Snapshot}

/-- Of a settlement, the counter notices nothing but the membrane for a copy. -/
theorem Carried.turnover (h : store.Sound) (hmine : store.membranes.find? id = some mine)
    (hsettles : (Snapshot.ofMembrane mine).Settles remote settlement)
    (hremote : remote.verify = .ok ())
    (hcarried : store.Carried id mine settlement sibling after) :
    store.Turnover after sibling.toList [] where
  counter := by
    cases hcarried with
    | keep | install => exact Or.inl ⟨rfl, rfl⟩
    | @beside copy _ _ hroom =>
      obtain ⟨fresh, hfresh⟩ :=
        Store.contains_iff.mp (store.contains_withNew_nextId mine.parent copy.shape)
      refine Or.inr ⟨rfl, (checkRoom_eq_ok_iff.mp hroom.room).2.2, ?_⟩
      rw [withCopy_of_find? hfresh]
      exact store.withNew_nextId mine.parent copy.shape
  contains_iff other := by
    rw [hcarried.contains_iff h hmine hsettles hremote]
    simp
  live other hmem := nomatch hmem

end Store

namespace Engine

variable {σ : Type} [Outbound σ] {store : Store} {id : MembraneId} {remote : Snapshot}
  {strategy : ConflictStrategy}

theorem receiveWith_turnover (engine : Engine σ) (h : store.Sound) (id : MembraneId)
    (remote : Snapshot) (strategy : ConflictStrategy) :
    store.Turnover (engine.receiveWith store id remote strategy).store
      (Answer.received (engine.receiveWith store id remote strategy).answer).createdIds [] := by
  obtain ⟨answer, engine', after, habsorb, habsorbs⟩ := engine.exists_absorbs store id remote strategy
  cases habsorbs with
  | corrupt | refused =>
    rw [receiveWith_of_error habsorb]
    exact store.turnover_self
  | settled hremote hmine hsettlement hcarried =>
    obtain ⟨_, _, _, _, hreceive⟩ := receiveWith_of_ok habsorb
    rw [hreceive]
    exact hcarried.turnover h hmine (hsettlement ▸ Snapshot.merge_settles _ remote _) hremote

/-- **What a call creates and releases is what it answers.** -/
theorem call_turnover (engine : Engine σ) (h : store.Forest) (call : Call) :
    store.Turnover (engine.call store call).2.2 (engine.call store call).1.createdIds
      (engine.call store call).1.releasedIds := by
  cases hdelivery : call.delivery? with
  | some delivery =>
    obtain ⟨id, remote, strategy⟩ := delivery
    rw [engine.call_of_delivery store hdelivery]
    exact engine.receiveWith_turnover h.toSound id remote _
  | none =>
    cases call with
    | receive | receiveWith | receiveShared => exact nomatch hdelivery
    | publish | forget => exact store.turnover_self
    | operate operation =>
      show store.Turnover (operation.run store).store
        (Answer.operated (operation.run store).answer).createdIds
        (Answer.operated (operation.run store).answer).releasedIds
      rcases (operation.turnover h).cases with ⟨refusal, hrun⟩ | ⟨reply, after, hrun, hturnover⟩
      · rw [hrun]
        exact store.turnover_self
      · rw [hrun]
        exact hturnover

end Engine

end Membranes
