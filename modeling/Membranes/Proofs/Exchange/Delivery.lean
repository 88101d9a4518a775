import Membranes.Exchange.Engine
import Membranes.Proofs.Exchange.Installation

/-!
# What receiving a snapshot does

* `Engine.absorb_absorbs`: a snapshot that comes in is corrupt, or refused, or absorbed
  (`Engine.Absorbs`). The first two count it and do nothing else.
* `Engine.receiveWith_of_absorb` and its companions: sending the local copy out afterwards changes the
  way out and the tally, and of the receipt only whether the copy was sent.
* `Engine.fault_commits_nothing`: whichever way a snapshot is received, a fault leaves the store, what
  the engine remembers, and the way out as they were.
-/

namespace Membranes

namespace Store

variable {store : Store} {id : MembraneId}

theorem snapshot_of_find? {membrane : Membrane} (h : store.membranes.find? id = some membrane) :
    store.snapshot id = .ok (.ofMembrane membrane) := by
  unfold Store.snapshot
  rw [membrane_of_find? h]
  rfl

theorem snapshot_of_not_live (h : store.membranes.find? id = none) :
    store.snapshot id = .error (.membraneNotFound id) := by
  unfold Store.snapshot
  rw [store.membrane_eq_error_iff.mpr ⟨h, rfl⟩]
  rfl

/-- A store for `count` membranes, of which there is one with two elements. -/
def ofPair (count : UInt32) : Store :=
  (Store.empty ⟨{ Limits.standard with maxMembranes := count }, .zeros⟩ 0).after
    [.create Snapshot.pairShape]

end Store

theorem Delivery.eq_of_answer {σ α : Type} {delivery : Delivery σ α}
    {answer : Except ExchangeFault α} (h : delivery.answer = answer) :
    delivery = ⟨answer, delivery.engine, delivery.store⟩ := by
  rw [← h]

namespace Engine

variable {σ : Type}

/-! ### Absorbing -/

/-- The engine that has counted a snapshot which it could not bring in. -/
def afterFault (engine : Engine σ) (fault : ExchangeFault) : Engine σ :=
  { engine with
    tally :=
      match fault with
      | .corrupt _ _ => engine.tally.countReceived.countCorrupt
      | _ => engine.tally.countReceived }

/-- The engine that has brought a snapshot in and has not yet sent anything out. -/
def afterDecision (engine : Engine σ) (id : MembraneId) (decision : Decision)
    (sibling : Option MembraneId) : Engine σ :=
  { engine with tally := engine.tally.countReceived }.remember id decision sibling

/-- What absorbing a snapshot can leave behind. -/
inductive Absorbs (engine : Engine σ) (store : Store) (id : MembraneId) (remote : Snapshot)
    (strategy : ConflictStrategy) : Delivery σ (Receipt × Snapshot) → Prop
  /-- The snapshot is damaged. -/
  | corrupt {fault : SnapshotFault} (hremote : remote.verify = .error fault) :
      Absorbs engine store id remote strategy
        ⟨.error (.corrupt remote.id fault), engine.afterFault (.corrupt remote.id fault), store⟩
  /-- The store refuses what the merge decided, or does not have the membrane. -/
  | refused {refusal : Refusal} (hremote : remote.verify = .ok ())
      (hrefused : ∀ mine, store.membranes.find? id = some mine →
        (store.carryOut id ((Snapshot.ofMembrane mine).merge remote (some strategy))).answer =
          .error refusal) :
      Absorbs engine store id remote strategy
        ⟨.error (.refused refusal), engine.afterFault (.refused refusal), store⟩
  /-- What the merge decided is carried out. -/
  | settled {mine current : Membrane} {settlement : Settlement} {sibling : Option MembraneId}
      {after : Store} (hremote : remote.verify = .ok ())
      (hmine : store.membranes.find? id = some mine)
      (hsettlement : settlement = (Snapshot.ofMembrane mine).merge remote (some strategy))
      (hcarried : store.Carried id mine settlement sibling after)
      (hcurrent : after.membranes.find? id = some current) :
      Absorbs engine store id remote strategy
        ⟨.ok (engine.receipt id settlement sibling (.ofMembrane current), .ofMembrane current),
          engine.afterDecision id settlement.decision sibling, after⟩

theorem absorb_absorbs (engine : Engine σ) (store : Store) (id : MembraneId) (remote : Snapshot)
    (strategy : ConflictStrategy) :
    engine.Absorbs store id remote strategy (engine.absorb store id remote strategy) := by
  unfold absorb
  cases hremote : remote.verify with
  | error fault => exact .corrupt hremote
  | ok verified =>
    cases hmine : store.membranes.find? id with
    | none =>
      rw [Store.snapshot_of_not_live hmine]
      exact .refused hremote (by simp [hmine])
    | some mine =>
      rw [Store.snapshot_of_find? hmine]
      dsimp only
      have hcarry := Store.carryOut_atomically hmine
        (Snapshot.merge_settles (.ofMembrane mine) remote (some strategy)) hremote
      rcases hcarry.cases with ⟨refusal, hrefused⟩ | ⟨sibling, after, hanswer, hcarried⟩
      · rw [hrefused]
        -- By atomicity the store behind the refusal is the one before it.
        refine .refused hremote fun other hother => ?_
        obtain rfl := Option.some.inj (hmine.symm.trans hother)
        rw [hrefused]
      -- The second look at the membrane finds it, so nothing can be refused after the change.
      · obtain ⟨current, hcurrent⟩ :=
          Store.contains_iff.mp (hcarried.contains (Store.contains_iff.mpr ⟨mine, hmine⟩))
        rw [hanswer]
        dsimp only
        rw [Store.snapshot_of_find? hcurrent]
        exact .settled hremote hmine rfl hcarried hcurrent

/-- The outcome of absorbing a snapshot, with its parts named. -/
theorem exists_absorbs (engine : Engine σ) (store : Store) (id : MembraneId) (remote : Snapshot)
    (strategy : ConflictStrategy) : ∃ answer engine' after,
      engine.absorb store id remote strategy = ⟨answer, engine', after⟩ ∧
        engine.Absorbs store id remote strategy ⟨answer, engine', after⟩ :=
  ⟨_, _, _, rfl, engine.absorb_absorbs store id remote strategy⟩

variable {engine engine' : Engine σ} {store after : Store} {id : MembraneId} {remote : Snapshot}
  {strategy : ConflictStrategy} {fault : ExchangeFault}

theorem Absorbs.of_error (h : engine.Absorbs store id remote strategy ⟨.error fault, engine', after⟩) :
    engine' = engine.afterFault fault ∧ after = store := by
  cases h <;> exact ⟨rfl, rfl⟩

/-! ### Sending out -/

variable [Outbound σ]

/-- What a way out can have become when a snapshot was offered, or not. -/
def Offers (outbound : σ) (snapshot : Snapshot) (outbound' : σ) : Prop :=
  outbound' = outbound ∨ outbound' = (Outbound.offer outbound snapshot).2

theorem sendOut_eq (engine : Engine σ) (receipt : Receipt) (current : Snapshot) :
    ∃ sentOut outbound tally, Offers engine.outbound current outbound ∧
      engine.sendOut receipt current =
        ({ receipt with sentOut }, { engine with outbound, tally }) := by
  unfold sendOut
  by_cases hsends : receipt.sentOut = true
  · rw [if_pos hsends]
    cases hoffer : engine.offer current with
    | mk answer offered =>
      obtain ⟨-, rfl⟩ := Prod.mk.inj hoffer
      cases answer with
      | ok taken => exact ⟨_, _, _, Or.inr rfl, rfl⟩
      | error fault => exact ⟨_, _, _, Or.inr rfl, rfl⟩
  · rw [if_neg hsends]
    exact ⟨_, _, _, Or.inl rfl, rfl⟩

theorem receiveWith_of_error
    (h : engine.absorb store id remote strategy = ⟨.error fault, engine', after⟩) :
    engine.receiveWith store id remote strategy = ⟨.error fault, engine', after⟩ := by
  unfold receiveWith
  rw [h]

theorem receiveWith_eq_sendOut {receipt : Receipt} {current : Snapshot}
    (h : engine.absorb store id remote strategy = ⟨.ok (receipt, current), engine', after⟩) :
    engine.receiveWith store id remote strategy =
      ⟨.ok (engine'.sendOut receipt current).1, (engine'.sendOut receipt current).2, after⟩ := by
  unfold receiveWith
  rw [h]

theorem receiveWith_of_ok {receipt : Receipt} {current : Snapshot}
    (h : engine.absorb store id remote strategy = ⟨.ok (receipt, current), engine', after⟩) :
    ∃ sentOut outbound tally, Offers engine'.outbound current outbound ∧
      engine.receiveWith store id remote strategy =
        ⟨.ok { receipt with sentOut }, { engine' with outbound, tally }, after⟩ := by
  obtain ⟨sentOut, outbound, tally, hoffers, hsend⟩ := sendOut_eq engine' receipt current
  refine ⟨sentOut, outbound, tally, hoffers, ?_⟩
  rw [receiveWith_eq_sendOut h, hsend]

/-- Receiving under a lock does what receiving does, and frees the lock. -/
theorem receiveShared_eq (engine : Engine σ) (shared : SharedStore) (id : MembraneId)
    (remote : Snapshot) :
    engine.receiveShared shared id remote =
      ((engine.receive shared.store id remote).answer, (engine.receive shared.store id remote).engine,
        .ofStore (engine.receive shared.store id remote).store) := by
  have hheld : shared.acquire.store = shared.store := rfl
  unfold receiveShared receive receiveWith
  dsimp only
  rw [hheld]
  cases engine.absorb shared.store id remote engine.policy.strategy with
  | mk answer engine' after =>
    cases answer with
    | error fault => rfl
    | ok absorbed => rfl

/-! ### Faults -/

theorem receiveWith_fault (h : (engine.receiveWith store id remote strategy).answer = .error fault) :
    engine.receiveWith store id remote strategy = ⟨.error fault, engine.afterFault fault, store⟩ := by
  obtain ⟨answer, engine', after, habsorb, habsorbs⟩ := engine.exists_absorbs store id remote strategy
  cases answer with
  | error cause =>
    rw [receiveWith_of_error habsorb] at h ⊢
    obtain ⟨rfl, rfl⟩ := habsorbs.of_error
    obtain rfl : cause = fault := Except.error.inj h
    rfl
  | ok absorbed =>
    obtain ⟨_, _, _, _, hreceive⟩ := receiveWith_of_ok habsorb
    rw [hreceive] at h
    exact nomatch h

/-- A whole snapshot is never called damaged. -/
theorem receiveWith_ne_corrupt (hremote : remote.verify = .ok ()) (other : MembraneId)
    (cause : SnapshotFault) :
    (engine.receiveWith store id remote strategy).answer ≠ .error (.corrupt other cause) := by
  intro hanswer
  obtain ⟨answer, engine', after, habsorb, habsorbs⟩ := engine.exists_absorbs store id remote strategy
  cases habsorbs with
  | corrupt hdamaged => exact nomatch hremote.symm.trans hdamaged
  | refused =>
    rw [receiveWith_of_error habsorb] at hanswer
    exact nomatch hanswer
  | settled =>
    obtain ⟨_, _, _, _, hreceive⟩ := receiveWith_of_ok habsorb
    rw [hreceive] at hanswer
    exact nomatch hanswer

/-- **A fault commits nothing.** Whichever way a snapshot is received, what is left of a fault is that
the engine has counted the snapshot, and the damage if there was any. A membrane made for a whole copy
always takes it, so none is ever made in vain. -/
theorem fault_commits_nothing (engine : Engine σ) (store : Store) (id : MembraneId)
    (remote : Snapshot) :
    (∀ strategy fault, (engine.receiveWith store id remote strategy).answer = .error fault →
      engine.receiveWith store id remote strategy =
        ⟨.error fault, engine.afterFault fault, store⟩) ∧
    (∀ fault, (engine.receive store id remote).answer = .error fault →
      engine.receive store id remote = ⟨.error fault, engine.afterFault fault, store⟩) ∧
    (∀ shared fault, shared.store = store →
      (engine.receiveShared shared id remote).1 = .error fault →
        engine.receiveShared shared id remote =
          (.error fault, engine.afterFault fault, .ofStore store)) ∧
    (∀ sibling after, remote.verify = .ok () →
      store.createBeside id remote.shape = ⟨.ok sibling, after⟩ →
        (after.replaceContent sibling remote.shape remote.buffer 1).answer = .ok ()) := by
  refine ⟨fun strategy fault => receiveWith_fault, fun fault => receiveWith_fault, ?_, ?_⟩
  · rintro shared fault rfl hfault
    rw [receiveShared_eq] at hfault ⊢
    have hreceive : engine.receive shared.store id remote = _ := receiveWith_fault hfault
    rw [hreceive]
  · intro sibling after hremote hcreate
    exact Store.replaceContent_of_createBeside hremote hcreate

/-- An engine without peers that keeps both copies in a conflict. -/
def splitting : Engine NoPeers := .ofPolicy ⟨.split, true⟩ ⟨⟩

/-- There is no room for the second copy in a store for one membrane; in one for two there is. -/
theorem fault_commits_nothing_crowded :
    (splitting.receiveWith (.ofPair 1) ⟨1⟩ (.ofPair 7 1 0x3F800000) .split).answer =
        .error (.refused (.capacity .membranes 1)) ∧
      splitting.receiveWith (.ofPair 1) ⟨1⟩ (.ofPair 7 1 0x3F800000) .split =
        ⟨.error (.refused (.capacity .membranes 1)),
          splitting.afterFault (.refused (.capacity .membranes 1)), .ofPair 1⟩ ∧
      splitting.receive (.ofPair 1) ⟨1⟩ (.ofPair 7 1 0x3F800000) =
        ⟨.error (.refused (.capacity .membranes 1)),
          splitting.afterFault (.refused (.capacity .membranes 1)), .ofPair 1⟩ ∧
      splitting.receiveShared (.ofStore (.ofPair 1)) ⟨1⟩ (.ofPair 7 1 0x3F800000) =
        (.error (.refused (.capacity .membranes 1)),
          splitting.afterFault (.refused (.capacity .membranes 1)), .ofStore (.ofPair 1)) ∧
      (Snapshot.ofPair 7 1 0x3F800000).verify = .ok () ∧
      (((Store.ofPair 2).createBeside ⟨1⟩ (Snapshot.ofPair 7 1 0x3F800000).shape).store.replaceContent
        ⟨2⟩ (Snapshot.ofPair 7 1 0x3F800000).shape (Snapshot.ofPair 7 1 0x3F800000).buffer 1).answer =
          .ok () := by
  have hanswer : (splitting.receiveWith (.ofPair 1) ⟨1⟩ (.ofPair 7 1 0x3F800000) .split).answer =
      .error (.refused (.capacity .membranes 1)) := by decide +kernel
  obtain ⟨hwith, hreceive, hshared, -⟩ :=
    fault_commits_nothing splitting (.ofPair 1) ⟨1⟩ (.ofPair 7 1 0x3F800000)
  obtain ⟨-, -, -, hmade⟩ :=
    fault_commits_nothing splitting (.ofPair 2) ⟨1⟩ (.ofPair 7 1 0x3F800000)
  refine ⟨hanswer, hwith .split _ hanswer, hreceive _ hanswer, hshared _ _ rfl ?_,
    Snapshot.verify_ofPair 7 1 0x3F800000, hmade ⟨2⟩ _ (Snapshot.verify_ofPair 7 1 0x3F800000) ?_⟩
  · decide +kernel
  · have hcreated : ((Store.ofPair 2).createBeside ⟨1⟩ (Snapshot.ofPair 7 1 0x3F800000).shape).answer =
        .ok ⟨2⟩ := by decide +kernel
    rw [← hcreated]

end Engine

end Membranes
