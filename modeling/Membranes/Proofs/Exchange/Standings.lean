import Membranes.Proofs.Exchange.Refinement
import Membranes.Proofs.Snapshot.Settlement

/-!
# What is remembered of an exchange, and what is the case

* `Standing.Describes`: what a standing says of the local membrane, the remote copy and the sibling.
* `Engine.receiveWith_standing`: what an engine remembers depends on the decision alone.
* `Engine.standing_describes_iff`: it describes what is the case unless the local copy has won a tie or
  the copies were averaged. Then both sides are said to have the same content and have not
  (`Engine.not_inSync_same_content`).
-/

namespace Membranes

/-- What a standing says once a snapshot of another side was received is the case. -/
structure Standing.Describes (standing : Standing) (after : Store) (id : MembraneId)
    (remote : Snapshot) : Prop where
  /-- There was an exchange. -/
  ne_idle : standing ≠ .idle
  /-- The local membrane has the content of the remote copy. -/
  inSync : standing = .inSync → ∃ current, after.membranes.find? id = some current ∧
    current.version = remote.version ∧ current.checksum = remote.checksum
  /-- The local membrane is ahead. -/
  diverged : standing = .diverged → ∃ current, after.membranes.find? id = some current ∧
    remote.version < current.version
  /-- The sibling is live and holds the remote copy. -/
  split : ∀ sibling, standing = .split sibling → ∃ copy,
    after.membranes.find? sibling = some copy ∧ copy.shape = remote.shape ∧
      copy.checksum = remote.checksum ∧ copy.buffer = remote.buffer

namespace Engine

variable {σ : Type} [Outbound σ] {engine engine' : Engine σ} {store after : Store} {id : MembraneId}
  {mine : Membrane} {remote : Snapshot} {strategy : ConflictStrategy} {receipt : Receipt}

/-- What is remembered of an exchange is what the receipt tells of the decision. -/
theorem receiveWith_standing
    (h : engine.receiveWith store id remote strategy = ⟨.ok receipt, engine', after⟩) :
    engine'.standing id = .ofDecision receipt.sibling receipt.decision := by
  obtain ⟨answer, absorbed, final, habsorb, habsorbs⟩ := engine.exists_absorbs store id remote strategy
  cases habsorbs with
  | corrupt | refused => exact nomatch (receiveWith_of_error habsorb).symm.trans h
  | settled =>
    obtain ⟨sentOut, outbound, tally, -, hreceive⟩ := receiveWith_of_ok habsorb
    obtain ⟨hreceipt, rfl, -⟩ := Delivery.mk.inj (hreceive.symm.trans h)
    obtain rfl := Except.ok.inj hreceipt
    show (IdMap.find? (IdMap.insert _ id _) id).getD Standing.idle = _
    rw [IdMap.find?_insert, if_pos rfl]
    rfl

theorem receiveWith_decision (hmine : store.membranes.find? id = some mine)
    (h : engine.receiveWith store id remote strategy = ⟨.ok receipt, engine', after⟩) :
    receipt.decision = ((Snapshot.ofMembrane mine).merge remote (some strategy)).decision := by
  obtain ⟨_, _, _, -, -, -, rfl⟩ := receiveWith_settled h hmine
  rfl

end Engine

/-! ### The decisions -/

section Decisions

variable {store after : Store} {id : MembraneId} {mine current : Membrane} {remote : Snapshot}
  {settlement : Settlement} {sibling : Option MembraneId}

theorem Standing.inSync_describes_iff (hcurrent : after.membranes.find? id = some current) :
    Standing.inSync.Describes after id remote ↔
      current.version = remote.version ∧ current.checksum = remote.checksum := by
  constructor
  · intro hdescribes
    obtain ⟨other, hother, hcontent⟩ := hdescribes.inSync rfl
    obtain rfl := Option.some.inj (hcurrent.symm.trans hother)
    exact hcontent
  · exact fun hcontent => ⟨nofun, fun _ => ⟨current, hcurrent, hcontent⟩, nofun, nofun⟩

/-- When one side takes the copy of the other one, keeps it beside its own, or is ahead, that is what
is remembered. -/
theorem Store.Refines.describes (hrefines : store.Refines after id mine settlement sibling)
    (hcurrent : after.membranes.find? id = some current)
    (hbecomes : mine.Becomes settlement current)
    (hdecides : (Snapshot.ofMembrane mine).Decides remote settlement)
    (hlocalWins : settlement.decision ≠ .conflict .localWins)
    (hblended : settlement.decision ≠ .conflict .blended) :
    (Standing.ofDecision sibling settlement.decision).Describes after id remote := by
  have hversion : current.version = settlement.result.version :=
    congrArg Snapshot.version hbecomes.snapshot_eq
  have hchecksum : current.checksum = settlement.result.checksum :=
    congrArg Snapshot.checksum hbecomes.snapshot_eq
  cases hdecides with
  | newer | remoteWins => exact (Standing.inSync_describes_iff hcurrent).mpr ⟨hversion, hchecksum⟩
  | older hlt =>
    exact ⟨nofun, nofun, fun _ => ⟨current, hcurrent, hversion ▸ hlt⟩, nofun⟩
  | same heq hsame =>
    exact (Standing.inSync_describes_iff hcurrent).mpr ⟨hversion.trans heq, hchecksum.trans hsame⟩
  | localWins => exact absurd rfl hlocalWins
  | blended => exact absurd rfl hblended
  | split =>
    obtain ⟨added, rfl, hgains⟩ := hrefines.beside remote rfl
    refine ⟨nofun, nofun, nofun, ?_⟩
    rintro _ ⟨⟩
    exact ⟨_, hgains.find?_sibling, rfl, rfl, rfl⟩

/-- A local copy that has won a tie is not the remote one. -/
theorem Membrane.Becomes.checksum_ne (hbecomes : mine.Becomes settlement current)
    (hdecides : (Snapshot.ofMembrane mine).Decides remote settlement)
    (hlocalWins : settlement.decision = .conflict .localWins) :
    current.version = remote.version ∧ current.checksum ≠ remote.checksum := by
  cases hdecides with
  | localWins hconflict =>
    have hsnapshot : Snapshot.ofMembrane current = Snapshot.ofMembrane mine := hbecomes.snapshot_eq
    rw [← hsnapshot] at hconflict
    exact Snapshot.compare_eq_conflict_iff.mp hconflict
  | _ => exact nomatch hlocalWins

/-- An average is ahead of the remote copy. -/
theorem Membrane.Becomes.version_lt (hbecomes : mine.Becomes settlement current)
    (hdecides : (Snapshot.ofMembrane mine).Decides remote settlement)
    (hblended : settlement.decision = .conflict .blended)
    (hversion : mine.version.toNat < UInt64.size - 1) : remote.version < current.version := by
  cases hdecides with
  | blended hconflict =>
    have hcurrent : current.version = ((Snapshot.ofMembrane mine).blend remote).version :=
      congrArg Snapshot.version hbecomes.snapshot_eq
    rw [hcurrent, ← (Snapshot.compare_eq_conflict_iff.mp hconflict).1]
    exact Snapshot.version_lt_blend hversion
  | _ => exact nomatch hblended

end Decisions

/-! ### Exchanges -/

namespace Engine

variable {σ : Type} [Outbound σ] {engine engine' : Engine σ} {store after : Store} {id : MembraneId}
  {mine : Membrane} {remote : Snapshot} {strategy : ConflictStrategy} {receipt : Receipt}

/-- **What is remembered of an exchange describes what is the case unless the local copy has won a tie
or the copies were averaged.** Those exchanges are remembered as ones that left the same content on both
sides, although the local content is another one, and in the second case ahead of the remote one. -/
theorem standing_describes_iff (hstore : store.Reachable)
    (hmine : store.membranes.find? id = some mine) (hversion : mine.version.toNat < UInt64.size - 1)
    (hreceive : engine.receiveWith store id remote strategy = ⟨.ok receipt, engine', after⟩) :
    ((engine'.standing id).Describes after id remote ↔
      receipt.decision ≠ .conflict .localWins ∧ receipt.decision ≠ .conflict .blended) ∧
    (receipt.decision = .conflict .localWins → engine'.standing id = .inSync ∧
      ∃ current, after.membranes.find? id = some current ∧
        current.version = remote.version ∧ current.checksum ≠ remote.checksum) ∧
    (receipt.decision = .conflict .blended → engine'.standing id = .inSync ∧
      ∃ current, after.membranes.find? id = some current ∧ remote.version < current.version) := by
  obtain ⟨current, hcurrent, hbecomes, -, -, hrefines⟩ :=
    receiveWith_refines hstore.sound hmine hreceive
  have hdecides := (Snapshot.ofMembrane mine).merge_decides remote (some strategy)
  rw [receiveWith_standing hreceive, receiveWith_decision hmine hreceive]
  generalize (Snapshot.ofMembrane mine).merge remote (some strategy) = settlement at *
  have hlocal : settlement.decision = .conflict .localWins →
      Standing.ofDecision receipt.sibling settlement.decision = .inSync ∧
        current.version = remote.version ∧ current.checksum ≠ remote.checksum := by
    intro hlocalWins
    rw [hlocalWins]
    exact ⟨rfl, hbecomes.checksum_ne hdecides hlocalWins⟩
  have haverage : settlement.decision = .conflict .blended →
      Standing.ofDecision receipt.sibling settlement.decision = .inSync ∧
        remote.version < current.version := by
    intro hblended
    rw [hblended]
    exact ⟨rfl, hbecomes.version_lt hdecides hblended hversion⟩
  refine ⟨⟨fun hdescribes => ⟨fun hlocalWins => ?_, fun hblended => ?_⟩, fun ⟨hlocalWins, hblended⟩ =>
    hrefines.describes hcurrent hbecomes hdecides hlocalWins hblended⟩, fun hlocalWins => ?_,
    fun hblended => ?_⟩
  · obtain ⟨hstanding, -, hne⟩ := hlocal hlocalWins
    rw [hstanding, Standing.inSync_describes_iff hcurrent] at hdescribes
    exact hne hdescribes.2
  · obtain ⟨hstanding, hlt⟩ := haverage hblended
    rw [hstanding, Standing.inSync_describes_iff hcurrent] at hdescribes
    exact UInt64.lt_irrefl _ (hdescribes.1 ▸ hlt)
  · obtain ⟨hstanding, hcontent⟩ := hlocal hlocalWins
    exact ⟨hstanding, current, hcurrent, hcontent⟩
  · obtain ⟨hstanding, hlt⟩ := haverage hblended
    exact ⟨hstanding, current, hcurrent, hlt⟩

/-- The copy that is kept stands where the engine says, and an average is not the copy that came in. -/
theorem standing_describes_iff_nested :
    let pair := splitting.receiveWith Store.nested ⟨2⟩ (.ofPair 7 1 0x3F800000) .split
    let average := splitting.receiveWith Store.nested ⟨2⟩ (.ofPair 7 1 0x3F800000) .blend
    Store.nested.Reachable ∧ Store.nested.membranes.find? ⟨2⟩ = some Store.nestedPair ∧
      pair.engine.standing ⟨2⟩ = .split ⟨3⟩ ∧
      (pair.engine.standing ⟨2⟩).Describes pair.store ⟨2⟩ (.ofPair 7 1 0x3F800000) ∧
      average.engine.standing ⟨2⟩ = .inSync ∧
      ¬ (average.engine.standing ⟨2⟩).Describes average.store ⟨2⟩ (.ofPair 7 1 0x3F800000) := by
  intro pair average
  have hmine : Store.nested.membranes.find? ⟨2⟩ = some Store.nestedPair := by decide +kernel
  have hversion : Store.nestedPair.version.toNat < UInt64.size - 1 := by decide +kernel
  have hpair : pair.answer = .ok ⟨⟨2⟩, .conflict, .conflict .split, 1, Store.nestedPair.checksum,
      some ⟨3⟩, false⟩ := by decide +kernel
  have haverage : average.answer = .ok ⟨⟨2⟩, .conflict, .conflict .blended, 2,
      checksumOf Snapshot.pairShape #[⟨0x3F000000⟩, ⟨0x3F000000⟩], none, true⟩ := by decide +kernel
  obtain ⟨hkept, -, -⟩ := standing_describes_iff Store.reachable_nested hmine hversion
    (Delivery.eq_of_answer hpair)
  obtain ⟨hmixed, -, hstanding⟩ := standing_describes_iff Store.reachable_nested hmine hversion
    (Delivery.eq_of_answer haverage)
  exact ⟨Store.reachable_nested, hmine, by decide +kernel, hkept.mpr ⟨by decide, by decide⟩,
    (hstanding rfl).1, fun hdescribes => (hmixed.mp hdescribes).2 rfl⟩

/-- An engine that averages the copies in a conflict and sends nothing out. -/
def averaging : Engine NoPeers := .ofPolicy ⟨.blend, false⟩ ⟨⟩

/-- An average is remembered as content that both sides have, and the other side does not have it. -/
theorem not_inSync_same_content :
    ¬ ∀ (engine engine' : Engine NoPeers) (store after : Store) (id : MembraneId) (mine : Membrane)
        (remote : Snapshot) (strategy : ConflictStrategy) (receipt : Receipt),
      store.Reachable → store.membranes.find? id = some mine → remote.verify = .ok () →
      mine.version.toNat < UInt64.size - 1 → remote.version.toNat < UInt64.size - 1 →
      engine.receiveWith store id remote strategy = ⟨.ok receipt, engine', after⟩ →
      engine'.standing id = .inSync → ∃ current, after.membranes.find? id = some current ∧
        current.version = remote.version ∧ current.checksum = remote.checksum := by
  intro hsame
  have hmine : (Store.ofPair 2).membranes.find? ⟨1⟩ =
      some (.fresh ⟨1⟩ Snapshot.pairShape #[.zero, .zero] 100 none) := by decide +kernel
  have hanswer : (averaging.receiveWith (.ofPair 2) ⟨1⟩ (.ofPair 7 1 0x3F800000) .blend).answer =
      .ok ⟨⟨1⟩, .conflict, .conflict .blended, 2,
        checksumOf Snapshot.pairShape #[⟨0x3F000000⟩, ⟨0x3F000000⟩], none, false⟩ := by decide +kernel
  have hstanding :
      (averaging.receiveWith (.ofPair 2) ⟨1⟩ (.ofPair 7 1 0x3F800000) .blend).engine.standing ⟨1⟩ =
        .inSync := by decide +kernel
  have hreachable : (Store.ofPair 2).Reachable := (Store.Reachable.empty _ _).after _
  -- The local copy is at version two, and the one that came in at version one.
  obtain ⟨current, hcurrent, hversion, -⟩ :=
    hsame averaging _ (.ofPair 2) _ ⟨1⟩ _ (.ofPair 7 1 0x3F800000) .blend _
      hreachable hmine (Snapshot.verify_ofPair _ _ _) (by decide +kernel) (by decide +kernel)
      (Delivery.eq_of_answer hanswer) hstanding
  have hlocal : ((averaging.receiveWith (.ofPair 2) ⟨1⟩
      (.ofPair 7 1 0x3F800000) .blend).store.membranes.find? ⟨1⟩).map (·.version) = some 2 := by
    decide +kernel
  rw [hcurrent] at hlocal
  exact absurd (hversion.symm.trans (Option.some.inj hlocal)) (by decide +kernel)

end Engine

end Membranes
