import Membranes.Exchange.Installation
import Membranes.Exchange.Outbound
import Membranes.Exchange.Tally
import Membranes.Store.Shared

/-!
# The synchronization engine

An engine brings remote snapshots into a store. It verifies a snapshot, merges it with the local copy,
installs the result, remembers how the exchange ended, and sends the local copy out again when that
prevailed.

Sending comes last and outside of the store: what `Engine.absorb` has done to the store stands, whether
or not `Engine.sendOut` finds somebody to take the snapshot.
-/

namespace Membranes

/-- What receiving a remote snapshot did. -/
structure Receipt where
  /-- The local membrane. -/
  id : MembraneId
  /-- How the copies were related. -/
  comparison : Comparison
  /-- The decision taken. -/
  decision : Decision
  /-- The local version afterwards. -/
  version : UInt64
  /-- The local checksum afterwards. -/
  checksum : UInt32
  /-- The membrane made for the remote copy. -/
  sibling : Option MembraneId
  /-- Whether the local copy was sent out. -/
  sentOut : Bool
deriving DecidableEq, Repr

/-- The acknowledgment for the sender of the remote snapshot. -/
def Receipt.acknowledgment (receipt : Receipt) : Acknowledgment where
  id := receipt.id
  version := receipt.version
  checksum := receipt.checksum
  decision := receipt.decision

/-- An engine with its way out. -/
structure Engine (σ : Type) where
  /-- The policy. -/
  policy : SyncPolicy
  /-- The way out. -/
  outbound : σ
  /-- How the last exchange of each membrane ended, where there was one. -/
  standings : IdMap Standing
  /-- What was counted so far. -/
  tally : Tally
deriving DecidableEq

/-- What a remote snapshot leaves behind. -/
structure Delivery (σ α : Type) where
  /-- The answer, or the reason why there is none. -/
  answer : Except ExchangeFault α
  /-- The engine afterwards. -/
  engine : Engine σ
  /-- The store afterwards. -/
  store : Store

namespace Engine

variable {σ : Type}

/-- An engine that has seen nothing yet. -/
def ofPolicy (policy : SyncPolicy) (outbound : σ) : Engine σ where
  policy
  outbound
  standings := .empty
  tally := .zero

variable (engine : Engine σ)

/-- How the last exchange of a membrane ended. -/
def standing (id : MembraneId) : Standing := (engine.standings.find? id).getD .idle

/-- Forgets how the last exchange of a membrane ended, for instance because it was destroyed. -/
def forget (id : MembraneId) : Engine σ := { engine with standings := engine.standings.erase id }

/-- Remembers and counts a decision. -/
def remember (id : MembraneId) (decision : Decision) (sibling : Option MembraneId) : Engine σ :=
  { engine with
    standings := engine.standings.insert id (.ofDecision sibling decision)
    tally := engine.tally.countDecision sibling decision }

/-! ### Receiving snapshots -/

/-- The receipt for a settlement that left a membrane as `current`. -/
def receipt (id : MembraneId) (settlement : Settlement) (sibling : Option MembraneId)
    (current : Snapshot) : Receipt where
  id
  comparison := settlement.comparison
  decision := settlement.decision
  version := current.version
  checksum := current.checksum
  sibling
  sentOut := engine.policy.rebroadcasts && settlement.prevails

/-- Verifies, merges and installs a remote snapshot. Answers a receipt, which says whether the local
copy is to be sent out, and that copy. -/
def absorb (store : Store) (id : MembraneId) (remote : Snapshot) (strategy : ConflictStrategy) :
    Delivery σ (Receipt × Snapshot) :=
  let engine := { engine with tally := engine.tally.countReceived }
  match remote.verify with
  | .error fault =>
    ⟨.error (.corrupt remote.id fault), { engine with tally := engine.tally.countCorrupt }, store⟩
  | .ok () =>
    match store.snapshot id with
    | .error refusal => ⟨.error (.refused refusal), engine, store⟩
    | .ok mine =>
      let settlement := mine.merge remote (some strategy)
      match store.carryOut id settlement with
      | ⟨.error refusal, store⟩ => ⟨.error (.refused refusal), engine, store⟩
      | ⟨.ok sibling, store⟩ =>
        let engine := engine.remember id settlement.decision sibling
        match store.snapshot id with
        | .error refusal => ⟨.error (.refused refusal), engine, store⟩
        | .ok current =>
          ⟨.ok (engine.receipt id settlement sibling current, current), engine, store⟩

variable [Outbound σ]

/-- Offers a snapshot on the way out. -/
def offer (snapshot : Snapshot) : Except ExchangeFault Unit × Engine σ :=
  let (answer, outbound) := Outbound.offer engine.outbound snapshot
  (answer, { engine with outbound })

/-- Sends the local copy out if the receipt asks for it, and corrects the receipt if nobody takes it. -/
def sendOut (receipt : Receipt) (current : Snapshot) : Receipt × Engine σ :=
  if receipt.sentOut then
    match engine.offer current with
    | (.ok (), engine) => (receipt, { engine with tally := engine.tally.countSent })
    | (.error _, engine) =>
      ({ receipt with sentOut := false }, { engine with tally := engine.tally.countUnsent })
  else (receipt, engine)

/-- Receives a remote snapshot of a membrane with a strategy for conflicts. -/
def receiveWith (store : Store) (id : MembraneId) (remote : Snapshot) (strategy : ConflictStrategy) :
    Delivery σ Receipt :=
  match engine.absorb store id remote strategy with
  | ⟨.error fault, engine, store⟩ => ⟨.error fault, engine, store⟩
  | ⟨.ok (receipt, current), engine, store⟩ =>
    let (receipt, engine) := engine.sendOut receipt current
    ⟨.ok receipt, engine, store⟩

/-- Receives a remote snapshot of a membrane with the strategy of the policy. -/
def receive (store : Store) (id : MembraneId) (remote : Snapshot) : Delivery σ Receipt :=
  engine.receiveWith store id remote engine.policy.strategy

/-- Receives a remote snapshot for a shared store. The merge holds the lock, and the lock is free again
when the local copy is sent out. -/
def receiveShared (shared : SharedStore) (id : MembraneId) (remote : Snapshot) :
    Except ExchangeFault Receipt × Engine σ × SharedStore :=
  let held := shared.acquire
  match engine.absorb held.store id remote engine.policy.strategy with
  | ⟨.error fault, engine, store⟩ => (.error fault, engine, .release store)
  | ⟨.ok (receipt, current), engine, store⟩ =>
    let shared := SharedStore.release store
    let (receipt, engine) := engine.sendOut receipt current
    (.ok receipt, engine, shared)

/-- Sends a snapshot of a membrane out, whatever its last exchange was. -/
def publish (store : Store) (id : MembraneId) : Except ExchangeFault Snapshot × Engine σ :=
  match store.snapshot id with
  | .error refusal => (.error (.refused refusal), engine)
  | .ok current =>
    match engine.offer current with
    | (.ok (), engine) => (.ok current, { engine with tally := engine.tally.countSent })
    | (.error fault, engine) => (.error fault, engine)

end Engine

end Membranes
