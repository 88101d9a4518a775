import Membranes.Proofs.Exchange.Reachable

/-!
# Receiving refines merging

* `Membrane.Becomes`: what a merge makes of the local membrane. `Store.Refines`: what it makes of the
  store around it, where a copy that is kept gets one membrane with the same owner
  (`Store.GainsSibling`).
* `Engine.receiveWith_refines_merge`: what a snapshot does to a reachable store is what the merge of the
  two copies says, and nothing else.
-/

namespace Membranes

/-! ### The local membrane -/

/-- What a membrane becomes when a merge is carried out: its content is the result, one more mutation is
counted if that is something new, and everything else is as it was. -/
structure Membrane.Becomes (mine : Membrane) (settlement : Settlement) (current : Membrane) : Prop where
  snapshot_eq : Snapshot.ofMembrane current = settlement.result
  symbols_eq : current.symbols = mine.symbols
  energy_eq : current.energy = mine.energy
  parent_eq : current.parent = mine.parent
  children_eq : current.children = mine.children
  operations_eq : current.operations =
    if settlement.changed then mine.operations + 1 else mine.operations

namespace Snapshot

variable {mine other : Snapshot} {settlement : Settlement}

theorem Settles.result_eq (h : mine.Settles other settlement) (hchanged : settlement.changed = false) :
    settlement.result = mine := by
  cases h with
  | keep | split => rfl
  | adopt | blend => exact nomatch hchanged

end Snapshot

namespace Membrane

variable {mine : Membrane} {settlement : Settlement} {remote : Snapshot}

theorem becomes_self (hsettles : (Snapshot.ofMembrane mine).Settles remote settlement)
    (hchanged : settlement.changed = false) : mine.Becomes settlement mine where
  snapshot_eq := (hsettles.result_eq hchanged).symm
  symbols_eq := rfl
  energy_eq := rfl
  parent_eq := rfl
  children_eq := rfl
  operations_eq := by rw [hchanged]; rfl

/-- The checksum that is computed anew is the one of the result, which is whole. -/
theorem becomes_withContent (hsettles : (Snapshot.ofMembrane mine).Settles remote settlement)
    (hmine : (Snapshot.ofMembrane mine).verify = .ok ()) (hremote : remote.verify = .ok ())
    (hchanged : settlement.changed = true) :
    mine.Becomes settlement
      { mine.withContent settlement.result.shape settlement.result.buffer with
        version := settlement.result.version } where
  snapshot_eq := by
    -- The store computes the checksum and keeps the identifier; the result states both.
    obtain ⟨-, -, hchecksum⟩ := Snapshot.verify_eq_ok_iff.mp (hsettles.verify hmine hremote)
    have hid : mine.id = settlement.result.id := hsettles.id_eq.symm
    show Snapshot.mk mine.id settlement.result.shape settlement.result.version
      (checksumOf settlement.result.shape settlement.result.buffer) settlement.result.buffer = _
    rw [← hchecksum, hid]
  symbols_eq := rfl
  energy_eq := rfl
  parent_eq := rfl
  children_eq := rfl
  operations_eq := by rw [hchanged]; rfl

end Membrane

/-! ### The store -/

namespace Store

/-- All that a merge changes in a store: the local membrane becomes what it says, a copy that is kept
gets a membrane beside it, and nothing else happens. -/
structure Refines (store after : Store) (id : MembraneId) (mine : Membrane) (settlement : Settlement)
    (sibling : Option MembraneId) : Prop where
  /-- The local membrane holds the result. -/
  becomes : ∃ current, after.membranes.find? id = some current ∧ mine.Becomes settlement current
  /-- Without a copy to be kept, everything else is as it was. -/
  alone : settlement.split = none → sibling = none ∧ after.config = store.config ∧
    after.roots = store.roots ∧ after.nextId = store.nextId ∧ after.draws = store.draws ∧
    ∀ other, other ≠ id → after.membranes.find? other = store.membranes.find? other
  /-- A copy to be kept gets a membrane of its own. -/
  beside : ∀ copy, settlement.split = some copy → ∃ added, sibling = some added ∧
    store.GainsSibling after mine.parent copy added

variable {store after : Store} {id : MembraneId} {mine : Membrane} {settlement : Settlement}
  {sibling : Option MembraneId} {remote : Snapshot}

theorem GainsSibling.find?_self (h : store.Sound) (hmine : store.membranes.find? id = some mine)
    {copy : Snapshot} {added : MembraneId} (hgains : store.GainsSibling after mine.parent copy added) :
    after.membranes.find? id = some mine := by
  -- It is neither the new membrane nor the owner, which is older.
  have hnew : id ≠ added := by
    rintro rfl
    exact Option.some_ne_none mine (hmine.symm.trans hgains.not_live)
  have howner : mine.parent ≠ some id := by
    intro hparent
    exact UInt32.lt_irrefl _ ((h.membrane hmine).owner_lt id hparent)
  rw [hgains.find?_other id hnew howner, hmine]

theorem GainsSibling.contains_iff {parent : Option MembraneId} {copy : Snapshot}
    {added other : MembraneId} (h : store.GainsSibling after parent copy added) :
    after.contains other = true ↔ store.contains other = true ∨ other = added := by
  by_cases hadded : other = added
  · simp [hadded, Store.contains, IdMap.contains, h.find?_sibling]
  · by_cases howner : parent = some other
    · obtain ⟨membrane, hbefore, hafter⟩ := h.find?_owner other howner
      simp [Store.contains, IdMap.contains, hbefore, hafter]
    · simp [Store.contains, IdMap.contains, h.find?_other other hadded howner, hadded]

/-- The membranes that are live afterwards are those from before, and the one made for a copy. -/
theorem Carried.contains_iff (h : store.Sound) (hmine : store.membranes.find? id = some mine)
    (hsettles : (Snapshot.ofMembrane mine).Settles remote settlement)
    (hremote : remote.verify = .ok ())
    (hcarried : store.Carried id mine settlement sibling after) {other : MembraneId} :
    after.contains other = true ↔ store.contains other = true ∨ sibling = some other := by
  cases hcarried with
  | keep => simp
  | install =>
    have hlive := contains_iff.mpr ⟨mine, hmine⟩
    by_cases hother : other = id
    · rw [hother]
      simp [contains_put hlive, hlive]
    · simp [Store.contains, IdMap.contains, hother]
  | beside _ hsplit hroom =>
    have hgains := hroom.gainsSibling h.find?_nextId (hsettles.copy_eq hsplit ▸ hremote)
    rw [hgains.contains_iff, Option.some.injEq, @eq_comm _ other]

theorem Carried.refines (h : store.Sound) (hmine : store.membranes.find? id = some mine)
    (hsettles : (Snapshot.ofMembrane mine).Settles remote settlement)
    (hremote : remote.verify = .ok ())
    (hcarried : store.Carried id mine settlement sibling after) :
    store.Refines after id mine settlement sibling := by
  cases hcarried with
  | keep hchanged hsplit =>
    refine ⟨⟨mine, hmine, Membrane.becomes_self hsettles hchanged⟩, fun _ => ?_, ?_⟩
    · exact ⟨rfl, rfl, rfl, rfl, rfl, fun _ _ => rfl⟩
    · simp [hsplit]
  | install hchanged hsplit =>
    have hbecomes := Membrane.becomes_withContent hsettles (h.membrane hmine).verify hremote hchanged
    refine ⟨⟨_, by rw [find?_put, if_pos rfl], hbecomes⟩, fun _ => ?_, ?_⟩
    · refine ⟨rfl, rfl, rfl, rfl, rfl, fun other hother => ?_⟩
      rw [find?_put, if_neg hother]
    · simp [hsplit]
  | beside hchanged hsplit hroom =>
    have hgains := hroom.gainsSibling h.find?_nextId (hsettles.copy_eq hsplit ▸ hremote)
    refine ⟨⟨mine, hgains.find?_self h hmine, Membrane.becomes_self hsettles hchanged⟩, ?_, ?_⟩
    · simp [hsplit]
    · intro other hother
      obtain rfl := Option.some.inj (hsplit.symm.trans hother)
      exact ⟨_, rfl, hgains⟩

end Store

namespace Engine

variable {σ : Type} [Outbound σ] {engine engine' : Engine σ} {store after : Store} {id : MembraneId}
  {mine : Membrane} {remote : Snapshot} {strategy : ConflictStrategy} {receipt : Receipt}

theorem receiveWith_settled
    (h : engine.receiveWith store id remote strategy = ⟨.ok receipt, engine', after⟩)
    (hmine : store.membranes.find? id = some mine) :
    ∃ current sibling sentOut, remote.verify = .ok () ∧
      store.Carried id mine ((Snapshot.ofMembrane mine).merge remote (some strategy)) sibling after ∧
      after.membranes.find? id = some current ∧
      receipt = { engine.receipt id ((Snapshot.ofMembrane mine).merge remote (some strategy)) sibling
        (.ofMembrane current) with sentOut } := by
  obtain ⟨answer, absorbed, final, habsorb, habsorbs⟩ := engine.exists_absorbs store id remote strategy
  cases habsorbs with
  | corrupt | refused => exact nomatch (receiveWith_of_error habsorb).symm.trans h
  | settled hremote hother hsettlement hcarried hcurrent =>
    obtain rfl := Option.some.inj (hmine.symm.trans hother)
    obtain ⟨sentOut, outbound, tally, -, hreceive⟩ := receiveWith_of_ok habsorb
    obtain ⟨hreceipt, -, rfl⟩ := Delivery.mk.inj (hreceive.symm.trans h)
    subst hsettlement
    exact ⟨_, _, _, hremote, hcarried, hcurrent, (Except.ok.inj hreceipt).symm⟩

/-- What the local membrane becomes, and what the receipt says of it. -/
theorem receiveWith_refines (h : store.Sound) (hmine : store.membranes.find? id = some mine)
    (hreceive : engine.receiveWith store id remote strategy = ⟨.ok receipt, engine', after⟩) :
    ∃ current, after.membranes.find? id = some current ∧
      mine.Becomes ((Snapshot.ofMembrane mine).merge remote (some strategy)) current ∧
      receipt.version = current.version ∧ receipt.checksum = current.checksum ∧
      store.Refines after id mine ((Snapshot.ofMembrane mine).merge remote (some strategy))
        receipt.sibling := by
  obtain ⟨current, sibling, sentOut, hremote, hcarried, hcurrent, rfl⟩ :=
    receiveWith_settled hreceive hmine
  have hrefines := hcarried.refines h hmine (Snapshot.merge_settles _ remote _) hremote
  obtain ⟨other, hother, hbecomes⟩ := hrefines.becomes
  obtain rfl := Option.some.inj (hcurrent.symm.trans hother)
  exact ⟨current, hcurrent, hbecomes, rfl, rfl, hrefines⟩

/-- **Receiving refines merging.** When a reachable store has received a snapshot of a live membrane,
the membrane is what the merge of the two copies says, the receipt tells its version and checksum, and
the store is otherwise as it was, but for the membrane of a copy that is kept. -/
theorem receiveWith_refines_merge (hstore : store.Reachable)
    (hmine : store.membranes.find? id = some mine)
    (hreceive : engine.receiveWith store id remote strategy = ⟨.ok receipt, engine', after⟩) :
    after.snapshot id = .ok ((Snapshot.ofMembrane mine).merge remote (some strategy)).result ∧
      receipt.version = ((Snapshot.ofMembrane mine).merge remote (some strategy)).result.version ∧
      receipt.checksum = ((Snapshot.ofMembrane mine).merge remote (some strategy)).result.checksum ∧
      store.Refines after id mine ((Snapshot.ofMembrane mine).merge remote (some strategy))
        receipt.sibling := by
  obtain ⟨current, hcurrent, hbecomes, hversion, hchecksum, hrefines⟩ :=
    receiveWith_refines hstore.sound hmine hreceive
  refine ⟨?_, ?_, ?_, hrefines⟩
  · rw [Store.snapshot_of_find? hcurrent, hbecomes.snapshot_eq]
  · rw [← hbecomes.snapshot_eq]
    exact hversion
  · rw [← hbecomes.snapshot_eq]
    exact hchecksum

/-- A copy of the lower membrane that is kept ends up under the upper one. -/
theorem receiveWith_refines_merge_split :
    Store.nested.Reachable ∧ Store.nested.membranes.find? ⟨2⟩ = some Store.nestedPair ∧
      (splitting.receiveWith Store.nested ⟨2⟩ (.ofPair 7 1 0x3F800000) .split).answer =
        .ok ⟨⟨2⟩, .conflict, .conflict .split, 1, Store.nestedPair.checksum, some ⟨3⟩, false⟩ ∧
      Store.nested.Refines
        (splitting.receiveWith Store.nested ⟨2⟩ (.ofPair 7 1 0x3F800000) .split).store ⟨2⟩
        Store.nestedPair ((Snapshot.ofMembrane Store.nestedPair).merge (.ofPair 7 1 0x3F800000) (some .split))
        (some ⟨3⟩) := by
  have hreachable : Store.nested.Reachable :=
    ((Store.Reachable.empty _ _).after _).after _
  have hmine : Store.nested.membranes.find? ⟨2⟩ = some Store.nestedPair := by decide +kernel
  have hanswer : (splitting.receiveWith Store.nested ⟨2⟩ (.ofPair 7 1 0x3F800000) .split).answer =
      .ok ⟨⟨2⟩, .conflict, .conflict .split, 1, Store.nestedPair.checksum, some ⟨3⟩, false⟩ := by
    decide +kernel
  obtain ⟨-, -, -, hrefines⟩ :=
    receiveWith_refines_merge hreachable hmine (Delivery.eq_of_answer hanswer)
  exact ⟨hreachable, hmine, hanswer, hrefines⟩

end Engine

end Membranes
