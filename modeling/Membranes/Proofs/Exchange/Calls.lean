import Membranes.Proofs.Exchange.Refinement

/-!
# Calls of an engine

An engine is used through calls, each of them made on a store.

* `Transcript` is a way out that writes down what it is offered, and whether that was taken. An `Entry`
  is what can be seen of a call from outside: the answer, the stores before and after it, and what was
  offered meanwhile.
* `Engine.call_of_delivery`: the three ways of receiving a snapshot are one.
* `Engine.entry_of_delivery` and `Engine.publish_cases`: what a call offers. When a snapshot was brought
  in that is the local copy, if anything, and the receipt tells whether it was taken.
* `Engine.call_store`: what operations and snapshots keep of a store, calls keep.
-/

namespace Membranes

variable {σ : Type}

/-! ### What is offered -/

/-- A snapshot on the way out, and whether it was taken. -/
structure Offer where
  snapshot : Snapshot
  taken : Bool
deriving DecidableEq

/-- A way out that writes down what it is offered. -/
structure Transcript (σ : Type) where
  /-- The way out itself. -/
  peers : σ
  /-- The offers, in order. -/
  offers : List Offer
deriving DecidableEq

/-- Offers a snapshot, and writes down what became of it. -/
def Transcript.offer [Outbound σ] (transcript : Transcript σ) (snapshot : Snapshot) :
    Except ExchangeFault Unit × Transcript σ :=
  let (answer, peers) := Outbound.offer transcript.peers snapshot
  (answer, ⟨peers, transcript.offers ++ [⟨snapshot, answer.isOk⟩]⟩)

instance [Outbound σ] : Outbound (Transcript σ) := ⟨Transcript.offer⟩

/-- A way out that takes every other copy. -/
structure Fickle where
  /-- Whether the next copy is taken. -/
  willing : Bool
deriving DecidableEq, Repr

instance : Outbound Fickle where
  offer peer _ := (if peer.willing then .ok () else .error (.unsent "not now"), ⟨!peer.willing⟩)

/-! ### Calls -/

/-- A request to an engine, or to the store that it is used with. -/
inductive Call where
  /-- Receive a snapshot of a membrane with the strategy of the policy. -/
  | receive (id : MembraneId) (remote : Snapshot)
  /-- Receive a snapshot of a membrane with a strategy for conflicts. -/
  | receiveWith (id : MembraneId) (remote : Snapshot) (strategy : ConflictStrategy)
  /-- Receive a snapshot of a membrane through the handle of a shared store. -/
  | receiveShared (id : MembraneId) (remote : Snapshot)
  /-- Send a snapshot of a membrane out. -/
  | publish (id : MembraneId)
  /-- Forget how the last exchange of a membrane ended. -/
  | forget (id : MembraneId)
  /-- Carry out an operation of the store. -/
  | operate (operation : Operation)
deriving DecidableEq

/-- The snapshot that a call brings in, the membrane that it is for, and the strategy if the call has
one of its own. -/
def Call.delivery? : Call → Option (MembraneId × Snapshot × Option ConflictStrategy)
  | receive id remote | receiveShared id remote => some (id, remote, none)
  | receiveWith id remote strategy => some (id, remote, some strategy)
  | publish _ | forget _ | operate _ => none

/-- The answer to a call. -/
inductive Answer where
  | received (result : Except ExchangeFault Receipt)
  | published (result : Except ExchangeFault Snapshot)
  | forgotten
  | operated (result : Except Refusal Reply)

/-- What can be seen of a call from outside. -/
structure Entry where
  call : Call
  /-- The store that the call was made on. -/
  before : Store
  answer : Answer
  /-- What was offered on the way out meanwhile. -/
  offers : List Offer
  /-- The store that the call left. -/
  after : Store

/-- The membranes that were not there before a call. -/
def Entry.created (entry : Entry) : List MembraneId :=
  entry.after.ids.filter fun id => !entry.before.contains id

namespace Engine

/-! ### What receiving a snapshot offers -/

section Receives

variable {store : Store} {id : MembraneId} {remote : Snapshot} {strategy : ConflictStrategy}

/-- Absorbing offers nothing. -/
theorem Absorbs.outbound_eq {engine : Engine σ} {delivery : Delivery σ (Receipt × Snapshot)}
    (h : engine.Absorbs store id remote strategy delivery) :
    delivery.engine.outbound = engine.outbound := by
  cases h <;> rfl

/-- The engine that has offered a snapshot, and counted what became of it. -/
def afterOffer (engine : Engine (Transcript σ)) (current : Snapshot) (taken : Bool) (peers : σ)
    (tally : Tally) : Engine (Transcript σ) :=
  { engine with
    outbound := ⟨peers, engine.outbound.offers ++ [⟨current, taken⟩]⟩
    tally }

/-- What receiving a snapshot can offer and leave behind. -/
inductive Receives (engine : Engine (Transcript σ)) (store : Store) (id : MembraneId)
    (remote : Snapshot) (strategy : ConflictStrategy) :
    List Offer → Delivery (Transcript σ) Receipt → Prop
  /-- The snapshot could not be brought in. -/
  | fault {fault : ExchangeFault}
      (habsorbs : engine.Absorbs store id remote strategy
        ⟨.error fault, engine.afterFault fault, store⟩) :
      Receives engine store id remote strategy [] ⟨.error fault, engine.afterFault fault, store⟩
  /-- It was brought in, and nothing is to be sent out. -/
  | silent {receipt : Receipt} {current : Snapshot} {engine' : Engine (Transcript σ)} {after : Store}
      (habsorbs : engine.Absorbs store id remote strategy ⟨.ok (receipt, current), engine', after⟩) :
      Receives engine store id remote strategy [] ⟨.ok receipt, engine', after⟩
  /-- It was brought in, and the local copy offered. -/
  | offered {receipt : Receipt} {current : Snapshot} {engine' : Engine (Transcript σ)} {after : Store}
      (habsorbs : engine.Absorbs store id remote strategy ⟨.ok (receipt, current), engine', after⟩)
      (taken : Bool) (peers : σ) :
      Receives engine store id remote strategy [⟨current, taken⟩]
        ⟨.ok { receipt with sentOut := taken },
          engine'.afterOffer current taken peers
            (if taken then engine'.tally.countSent else engine'.tally.countUnsent), after⟩

theorem Receives.outbound_offers {engine : Engine (Transcript σ)} {offers : List Offer}
    {delivery : Delivery (Transcript σ) Receipt}
    (h : engine.Receives store id remote strategy offers delivery) :
    delivery.engine.outbound.offers = engine.outbound.offers ++ offers := by
  cases h with
  | fault => exact (List.append_nil _).symm
  | silent habsorbs =>
    rw [List.append_nil]
    exact congrArg (·.offers) habsorbs.outbound_eq
  | offered habsorbs taken peers =>
    have hbefore := congrArg (·.offers) habsorbs.outbound_eq
    exact congrArg (· ++ _) hbefore

end Receives

/-! ### Carrying out calls -/

/-- Carries out a call: the answer, the engine and the store afterwards. -/
def call [Outbound σ] (engine : Engine σ) (store : Store) : Call → Answer × Engine σ × Store
  | .receive id remote =>
    let delivery := engine.receive store id remote
    (.received delivery.answer, delivery.engine, delivery.store)
  | .receiveWith id remote strategy =>
    let delivery := engine.receiveWith store id remote strategy
    (.received delivery.answer, delivery.engine, delivery.store)
  | .receiveShared id remote =>
    let (answer, engine, shared) := engine.receiveShared (.ofStore store) id remote
    (.received answer, engine, shared.store)
  | .publish id =>
    let (answer, engine) := engine.publish store id
    (.published answer, engine, store)
  | .forget id => (.forgotten, engine.forget id, store)
  | .operate operation =>
    let outcome := operation.run store
    (.operated outcome.answer, engine, outcome.store)

/-- The entry for a call: what it offers is what the transcript has gained. -/
def entry [Outbound σ] (engine : Engine (Transcript σ)) (store : Store) (call : Call) : Entry :=
  let (answer, engine', after) := engine.call store call
  { call
    before := store
    answer
    offers := engine'.outbound.offers.drop engine.outbound.offers.length
    after }

/-- What a run of calls leaves behind. -/
structure Service (σ : Type) where
  /-- What was to be seen of each call. -/
  entries : List Entry
  engine : Engine (Transcript σ)
  store : Store

/-- Carries out calls in order, each on the store that the one before it left. -/
def serve [Outbound σ] (engine : Engine (Transcript σ)) (store : Store) : List Call → Service σ
  | [] => ⟨[], engine, store⟩
  | call :: calls =>
    let (_, engine', after) := engine.call store call
    let service := serve engine' after calls
    { service with entries := engine.entry store call :: service.entries }

variable [Outbound σ] {store : Store} {call : Call} {id : MembraneId} {remote : Snapshot}
  {strategy : Option ConflictStrategy}

/-- The three ways of receiving a snapshot are one. -/
theorem call_of_delivery (engine : Engine σ) (store : Store)
    (h : call.delivery? = some (id, remote, strategy)) :
    engine.call store call =
      let delivery := engine.receiveWith store id remote (strategy.getD engine.policy.strategy)
      (.received delivery.answer, delivery.engine, delivery.store) := by
  cases call with
  | receive | receiveWith =>
    cases h
    rfl
  | receiveShared =>
    cases h
    unfold Engine.call
    dsimp only
    rw [receiveShared_eq]
    rfl
  | publish | forget | operate => exact nomatch h

/-- What a call leaves behind is what it answers and offers, and the store after it. -/
theorem entry_eq {engine engine' : Engine (Transcript σ)} {after : Store} {answer : Answer}
    {offers : List Offer} (hcall : engine.call store call = (answer, engine', after))
    (hoffers : engine'.outbound.offers = engine.outbound.offers ++ offers) :
    engine.entry store call = ⟨call, store, answer, offers, after⟩ := by
  unfold entry
  rw [hcall]
  dsimp only
  rw [hoffers, List.drop_left]

/-! ### Offering to a transcript -/

variable {engine : Engine (Transcript σ)} {receipt : Receipt} {current : Snapshot}

theorem offer_eq (engine : Engine (Transcript σ)) (current : Snapshot) :
    engine.offer current = ((Outbound.offer engine.outbound.peers current).1,
      engine.afterOffer current (Outbound.offer engine.outbound.peers current).1.isOk
        (Outbound.offer engine.outbound.peers current).2 engine.tally) := rfl

theorem sendOut_of_silent (engine : Engine (Transcript σ)) (h : receipt.sentOut = false) :
    engine.sendOut receipt current = (receipt, engine) := by
  unfold sendOut
  rw [h]
  rfl

/-- The copy is offered once, and the receipt says in the end whether it was taken. -/
theorem sendOut_of_offer (engine : Engine (Transcript σ)) (current : Snapshot)
    (h : receipt.sentOut = true) :
    ∃ taken peers, engine.sendOut receipt current = ({ receipt with sentOut := taken },
      engine.afterOffer current taken peers
        (if taken then engine.tally.countSent else engine.tally.countUnsent)) := by
  unfold sendOut
  rw [if_pos h, offer_eq]
  cases Outbound.offer engine.outbound.peers current with
  | mk answer peers =>
    cases answer with
    | ok taken =>
      have hreceipt : { receipt with sentOut := true } = receipt := by rw [← h]
      exact ⟨true, peers, by rw [hreceipt]; rfl⟩
    | error fault => exact ⟨false, peers, rfl⟩

/-- Publishing is refused with the membrane, or offers what it holds. -/
theorem publish_cases (engine : Engine (Transcript σ)) (store : Store) (id : MembraneId) :
    (∃ refusal, store.snapshot id = .error refusal ∧
      engine.publish store id = (.error (.refused refusal), engine)) ∨
    ∃ current answer taken peers, store.snapshot id = .ok current ∧
      engine.publish store id = (answer, engine.afterOffer current taken peers
        (if taken then engine.tally.countSent else engine.tally)) := by
  unfold publish
  cases hsnapshot : store.snapshot id with
  | error refusal => exact Or.inl ⟨refusal, rfl, rfl⟩
  | ok current =>
    dsimp only
    rw [offer_eq]
    cases Outbound.offer engine.outbound.peers current with
    | mk answer peers =>
      cases answer with
      | ok taken => exact Or.inr ⟨current, .ok current, true, peers, rfl, rfl⟩
      | error fault => exact Or.inr ⟨current, .error fault, false, peers, rfl, rfl⟩

/-! ### Receiving with a transcript -/

theorem receiveWith_receives (engine : Engine (Transcript σ)) (store : Store) (id : MembraneId)
    (remote : Snapshot) (strategy : ConflictStrategy) :
    ∃ offers, engine.Receives store id remote strategy offers
      (engine.receiveWith store id remote strategy) := by
  obtain ⟨answer, engine', after, habsorb, habsorbs⟩ := engine.exists_absorbs store id remote strategy
  cases answer with
  | error fault =>
    obtain ⟨rfl, rfl⟩ := habsorbs.of_error
    rw [receiveWith_of_error habsorb]
    exact ⟨_, .fault habsorbs⟩
  | ok absorbed =>
    obtain ⟨receipt, current⟩ := absorbed
    rw [receiveWith_eq_sendOut habsorb]
    cases hsends : receipt.sentOut with
    | false =>
      rw [engine'.sendOut_of_silent hsends]
      exact ⟨_, .silent habsorbs⟩
    | true =>
      obtain ⟨taken, peers, hsend⟩ := engine'.sendOut_of_offer current hsends
      rw [hsend]
      exact ⟨_, .offered habsorbs taken peers⟩

/-- What is to be seen of a call that brings a snapshot in. -/
theorem entry_of_delivery (engine : Engine (Transcript σ)) (store : Store)
    (h : call.delivery? = some (id, remote, strategy)) :
    ∃ offers delivery,
      engine.Receives store id remote (strategy.getD engine.policy.strategy) offers delivery ∧
      engine.call store call = (.received delivery.answer, delivery.engine, delivery.store) ∧
      engine.entry store call = ⟨call, store, .received delivery.answer, offers, delivery.store⟩ := by
  obtain ⟨offers, hreceives⟩ :=
    engine.receiveWith_receives store id remote (strategy.getD engine.policy.strategy)
  have hcall := engine.call_of_delivery store h
  exact ⟨offers, _, hreceives, hcall, entry_eq hcall hreceives.outbound_offers⟩

/-! ### The store after a call -/

/-- A call leaves the store as it was, or as an operation or a snapshot leaves it. -/
theorem call_store {motive : Store → Prop} (engine : Engine σ) (call : Call) (hself : motive store)
    (hoperation : ∀ operation : Operation, motive (operation.run store).store)
    (hdelivery : ∀ id remote strategy, motive (engine.receiveWith store id remote strategy).store) :
    motive (engine.call store call).2.2 := by
  cases hcall : call.delivery? with
  | some delivery =>
    obtain ⟨id, remote, strategy⟩ := delivery
    rw [engine.call_of_delivery store hcall]
    exact hdelivery id remote _
  | none =>
    cases call with
    | receive | receiveWith | receiveShared => exact nomatch hcall
    | publish | forget => exact hself
    | operate operation => exact hoperation operation

theorem steps_call (engine : Engine σ) (store : Store) (call : Call) :
    store.Steps (engine.call store call).2.2 :=
  engine.call_store call .refl (fun operation => Store.steps_run operation store)
    (engine.steps_receiveWith store)

/-- Calls lead from reachable stores to reachable stores. -/
theorem call_reachable (engine : Engine σ) (h : store.Reachable) (call : Call) :
    (engine.call store call).2.2.Reachable :=
  engine.call_store call h h.operation (h.delivery engine)

end Engine

end Membranes
