import Membranes.Proofs.Exchange.Reachable
import Membranes.Proofs.Snapshot.Exchange
import Membranes.Proofs.Store.Depth

/-!
# Replicas with the same limits accept each other's copies

* `Store.Exhausted` lists what can stand against one more membrane beside a live one. The depth is
  not among it, for the sibling stands on a level that the store has reached already
  (`Forest.checkOwner_exhausted`), nor is the shape of a copy from a store with the same limits.
* `Forest.carryOut_exhausted`: where both copies are within the limits, what a merge decided is only
  refused when a copy is to be kept and the store is exhausted.
* `Engine.receiveWith_accepts_peer` draws the conclusion for two reachable stores.
-/

namespace Membranes

namespace Store

/-- What a store can have used up when it has no room for one more membrane with this owner, as the
refusal that says so. -/
inductive Exhausted (store : Store) (parent : Option MembraneId) : Refusal → Prop
  /-- The owner has all the children that it may have. -/
  | children {owner : MembraneId} {membrane : Membrane} (hparent : parent = some owner)
      (hfind : store.membranes.find? owner = some membrane)
      (hfull : store.config.limits.maxChildren.toNat ≤ membrane.children.length) :
      Exhausted store parent (.capacity .children store.config.limits.maxChildren.toUInt64)
  /-- The store has all the membranes that it may have. -/
  | membranes (hfull : store.config.limits.maxMembranes.toNat ≤ store.size) :
      Exhausted store parent (.capacity .membranes store.config.limits.maxMembranes.toUInt64)
  /-- The counter is used up. -/
  | identifiers (hused : UInt32.size ≤ store.nextId.toNat + 1) :
      Exhausted store parent (.capacity .membranes 0xFFFFFFFF)

variable {store peer : Store} {parent : Option MembraneId} {id : MembraneId} {mine : Membrane}
  {shape : Shape} {refusal : Refusal}

/-! ### Room for a sibling -/

theorem checkRoom_exhausted (hadmits : store.config.limits.Admits shape)
    (hrefused : store.checkRoom shape = .error refusal) (parent : Option MembraneId) :
    store.Exhausted parent refusal := by
  unfold checkRoom at hrefused
  obtain hshape | ⟨-, hroom⟩ := check_bind_eq_error_iff.mp hrefused
  · exact nomatch (checkShape_eq_ok_iff.mpr hadmits).symm.trans hshape
  · obtain hsize | ⟨-, hcounter⟩ := check_bind_eq_error_iff.mp hroom
    · obtain ⟨hfull, rfl⟩ := require_eq_error_iff.mp hsize
      exact .membranes (Nat.le_of_not_lt hfull)
    · obtain ⟨hused, rfl⟩ := require_eq_error_iff.mp hcounter
      exact .identifiers (Nat.le_of_not_lt hused)

/-- A membrane that owns another one may own a further one, unless it has too many of them. -/
theorem Forest.checkOwner_exhausted (h : store.Forest) (hshallow : store.Shallow)
    {owner : MembraneId}
    (howns : store.Owns owner id) (hrefused : store.checkOwner owner = .error refusal) :
    store.Exhausted (some owner) refusal := by
  obtain ⟨membrane, hfind⟩ := contains_iff.mp (live_of_owns howns)
  obtain ⟨path, hpath⟩ := h.exists_path (live_of_owns howns)
  unfold checkOwner at hrefused
  rw [membrane_of_find? hfind, hpath.depth_eq h] at hrefused
  obtain hchildren | ⟨-, hdepth⟩ := check_bind_eq_error_iff.mp hrefused
  · obtain ⟨hfull, rfl⟩ := require_eq_error_iff.mp hchildren
    exact .children rfl hfind (Nat.le_of_not_lt hfull)
  -- The depth was checked when the first child was made.
  · obtain ⟨hdeep, -⟩ := require_eq_error_iff.mp hdepth
    rw [UInt32.lt_iff_toNat_lt, hpath.toNat_length h] at hdeep
    exact absurd (hshallow path owner id hpath howns) hdeep

theorem Forest.createBeside_exhausted (h : store.Forest) (hshallow : store.Shallow)
    (hmine : store.membranes.find? id = some mine) (hadmits : store.config.limits.Admits shape)
    (hrefused : (store.createBeside id shape).answer = .error refusal) :
    store.Exhausted mine.parent refusal := by
  unfold createBeside at hrefused
  rw [parent_of_find? hmine] at hrefused
  cases howner : mine.parent with
  | none =>
    rw [howner] at hrefused
    exact checkRoom_exhausted hadmits (create_eq_error_iff.mp hrefused) none
  | some owner =>
    rw [howner] at hrefused
    have howns : store.Owns owner id :=
      h.mem_ownedBy_iff.mpr (ownerOf?_eq_some_iff.mpr ⟨mine, hmine, howner⟩)
    obtain hchild | ⟨-, hroom⟩ := createUnder_eq_error_iff.mp hrefused
    · exact h.checkOwner_exhausted hshallow howns hchild
    · exact checkRoom_exhausted hadmits hroom (some owner)

/-! ### Carrying out -/

/-- A whole copy is refused a membrane of its own only when that cannot be created. -/
theorem createBeside_of_addSibling_error {copy : Snapshot} (hcopy : copy.verify = .ok ())
    (hrefused : (store.addSibling id copy).answer = .error refusal) :
    (store.createBeside id copy.shape).answer = .error refusal := by
  obtain hcreate | ⟨sibling, hanswer, hinstall⟩ := Outcome.andThen_eq_error_iff.mp hrefused
  · exact hcreate
  · cases hcreate : store.createBeside id copy.shape with
    | mk answer after =>
      rw [hcreate] at hanswer hinstall
      obtain rfl : answer = .ok sibling := hanswer
      dsimp only at hinstall
      rw [replaceContent_of_createBeside hcopy hcreate] at hinstall
      exact nomatch hinstall

/-- With both copies within the limits, a refusal means that there is no room for a second one. -/
theorem Forest.carryOut_exhausted (h : store.Forest) (hshallow : store.Shallow)
    (hmine : store.membranes.find? id = some mine) {remote : Snapshot} {settlement : Settlement}
    (hsettles : (Snapshot.ofMembrane mine).Settles remote settlement)
    (hremote : remote.verify = .ok ()) (hadmits : store.config.limits.Admits remote.shape)
    (hrefused : (store.carryOut id settlement).answer = .error refusal) :
    settlement.split = some remote ∧ store.Exhausted mine.parent refusal := by
  have hsound := h.membrane hmine
  cases hsplit : settlement.split with
  | none =>
    have hanswer := carryOut_of_admits hmine hsplit (hsettles.admits hsound.admits hadmits)
      (hsettles.verify hsound.verify hremote)
    exact nomatch hanswer.symm.trans hrefused
  | some copy =>
    obtain rfl := hsettles.copy_eq hsplit
    refine ⟨rfl, h.createBeside_exhausted hshallow hmine hadmits ?_⟩
    apply createBeside_of_addSibling_error hremote
    cases hsettles with
    | keep | adopt | blend => exact nomatch hsplit
    -- The local copy stays, so nothing but the new membrane can be refused.
    | split =>
      obtain hadd | ⟨_, -, hadopt⟩ := Outcome.andThen_eq_error_iff.mp hrefused
      · obtain hsibling | ⟨_, -, hdone⟩ := Outcome.andThen_eq_error_iff.mp hadd
        · exact hsibling
        · exact nomatch hdone
      · exact nomatch hadopt

theorem Reachable.shallow (h : store.Reachable) : store.Shallow := by
  obtain ⟨config, entropy, hsteps⟩ := h.exists_steps
  exact (forest_empty config entropy).shallow_steps (shallow_empty config entropy) hsteps

/-- A full store in which the lower membrane was written to. -/
def nestedFull : Store :=
  nested.after [.fill ⟨2⟩ ⟨0x3F800000⟩, .create Snapshot.pairShape]

end Store

namespace Engine

variable {σ : Type} [Outbound σ] {engine : Engine σ} {store peer : Store} {id other : MembraneId}
  {mine : Membrane} {remote : Snapshot} {strategy : ConflictStrategy} {fault : ExchangeFault}

/-- A whole snapshot for a live membrane is refused by the store, or not at all. -/
theorem refused_of_receiveWith (hremote : remote.verify = .ok ())
    (hmine : store.membranes.find? id = some mine)
    (h : (engine.receiveWith store id remote strategy).answer = .error fault) :
    ∃ refusal, fault = .refused refusal ∧
      (store.carryOut id ((Snapshot.ofMembrane mine).merge remote (some strategy))).answer =
        .error refusal := by
  obtain ⟨answer, engine', after, habsorb, habsorbs⟩ := engine.exists_absorbs store id remote strategy
  cases habsorbs with
  | corrupt hdamaged => exact nomatch hremote.symm.trans hdamaged
  | @refused refusal _ hrefused =>
    rw [receiveWith_of_error habsorb] at h
    exact ⟨refusal, (Except.error.inj h).symm, hrefused mine hmine⟩
  | settled =>
    obtain ⟨_, _, _, _, hreceive⟩ := receiveWith_of_ok habsorb
    rw [hreceive] at h
    exact nomatch h

/-- **Replicas with the same limits accept each other's copies.** A reachable store never refuses
the copy that a reachable store with the same limits has of one of its membranes, whichever membrane
it is meant for, as long as conflicts are not split. If they are, the only refusal is that there is
no room for a second copy: the owner has all its children, or the store all its membranes. -/
theorem receiveWith_accepts_peer (engine : Engine σ) (hstore : store.Reachable)
    (hpeer : peer.Reachable)
    (hlimits : store.config.limits = peer.config.limits)
    (hmine : store.membranes.find? id = some mine) (hremote : peer.snapshot other = .ok remote)
    (strategy : ConflictStrategy) :
    (strategy ≠ .split →
      ∃ receipt, (engine.receiveWith store id remote strategy).answer = .ok receipt) ∧
    ∀ fault, (engine.receiveWith store id remote strategy).answer = .error fault →
      ∃ resource limit, fault = .refused (.capacity resource limit) ∧
        (resource = .children ∨ resource = .membranes) ∧
        store.Exhausted mine.parent (.capacity resource limit) := by
  obtain ⟨theirs, htheirs, rfl⟩ := map_eq_ok_iff.mp hremote
  have hsound := hpeer.sound.membrane (peer.membrane_eq_ok_iff.mp htheirs)
  have hadmits : store.config.limits.Admits (Snapshot.ofMembrane theirs).shape :=
    hlimits ▸ hsound.admits
  have hrefused : ∀ fault,
      (engine.receiveWith store id (.ofMembrane theirs) strategy).answer = .error fault →
        ∃ refusal, fault = .refused refusal ∧
          ((Snapshot.ofMembrane mine).merge (.ofMembrane theirs) (some strategy)).split =
            some (.ofMembrane theirs) ∧ store.Exhausted mine.parent refusal := by
    intro fault hfault
    obtain ⟨refusal, hrefusal, hcarry⟩ := refused_of_receiveWith hsound.verify hmine hfault
    exact ⟨refusal, hrefusal, hstore.forest.carryOut_exhausted hstore.shallow hmine
      (Snapshot.merge_settles _ _ _) hsound.verify hadmits hcarry⟩
  constructor
  · intro hstrategy
    cases hanswer : (engine.receiveWith store id (.ofMembrane theirs) strategy).answer with
    | ok receipt => exact ⟨receipt, rfl⟩
    | error fault =>
      obtain ⟨_, -, hsplit, -⟩ := hrefused fault hanswer
      rw [Snapshot.merge_of_not_splits fun hsplits => hstrategy hsplits.strategy_eq] at hsplit
      exact nomatch hsplit
  · intro fault hfault
    obtain ⟨refusal, rfl, -, hexhausted⟩ := hrefused fault hfault
    cases hexhausted with
    | children hparent hfind hfull =>
      exact ⟨_, _, rfl, Or.inl rfl, .children hparent hfind hfull⟩
    | membranes hfull => exact ⟨_, _, rfl, Or.inr rfl, .membranes hfull⟩
    | identifiers hused => exact ⟨_, _, rfl, Or.inr rfl, .identifiers hused⟩

/-- A full store averages a conflicting copy, and has no room to keep it. -/
theorem receiveWith_accepts_peer_crowded :
    Store.nestedFull.Reachable ∧ (Store.nested.after [.fill ⟨1⟩ ⟨0x40000000⟩]).Reachable ∧
      (∃ receipt,
        (splitting.receiveWith Store.nestedFull ⟨2⟩ (.ofPair 1 2 0x40000000) .blend).answer =
          .ok receipt) ∧
      (splitting.receiveWith Store.nestedFull ⟨2⟩ (.ofPair 1 2 0x40000000) .split).answer =
        .error (.refused (.capacity .membranes 3)) ∧
      Store.nestedFull.Exhausted (some ⟨1⟩) (.capacity .membranes 3) := by
  have hstore : Store.nestedFull.Reachable := Store.reachable_nested.after _
  have hpeer : (Store.nested.after [.fill ⟨1⟩ ⟨0x40000000⟩]).Reachable :=
    Store.reachable_nested.after _
  have hlimits : Store.nestedFull.config.limits =
      (Store.nested.after [.fill ⟨1⟩ ⟨0x40000000⟩]).config.limits := by decide +kernel
  have hmine : Store.nestedFull.membranes.find? ⟨2⟩ =
      some (Store.nestedPair.filled ⟨0x3F800000⟩) := by decide +kernel
  have hremote : (Store.nested.after [.fill ⟨1⟩ ⟨0x40000000⟩]).snapshot ⟨1⟩ =
      .ok (.ofPair 1 2 0x40000000) := by decide +kernel
  have hanswer :
      (splitting.receiveWith Store.nestedFull ⟨2⟩ (.ofPair 1 2 0x40000000) .split).answer =
      .error (.refused (.capacity .membranes 3)) := by decide +kernel
  obtain ⟨haccepts, -⟩ :=
    receiveWith_accepts_peer splitting hstore hpeer hlimits hmine hremote .blend
  obtain ⟨-, hrefuses⟩ :=
    receiveWith_accepts_peer splitting hstore hpeer hlimits hmine hremote .split
  obtain ⟨resource, limit, hfault, -, hexhausted⟩ := hrefuses _ hanswer
  obtain ⟨rfl, rfl⟩ : .membranes = resource ∧ 3 = limit := by simpa using hfault
  exact ⟨hstore, hpeer, haccepts nofun, hanswer, hexhausted⟩

end Engine

end Membranes
