import Membranes.Proofs.Exchange.Acceptance
import Membranes.Proofs.Exchange.Refinement

/-!
# A snapshot that comes in twice

* `Snapshot.merge_again`: merging what a merge left with the same copy once more asks for nothing,
  unless the conflict of the two is split. A copy that was taken over is found to be equal, and an
  average is newer than what was averaged.
* `Engine.redelivery`: so the second delivery of a snapshot leaves the store as the first one did. A
  split is the exception: it leaves the local membrane alone, so that the second time the copies are
  in conflict again (`Engine.not_redelivery_harmless`).
-/

namespace Membranes

/-- The local copy stays, and there is no other one to be kept. -/
structure Settlement.Idle (settlement : Settlement) : Prop where
  changed_eq : settlement.changed = false
  split_eq : settlement.split = none

namespace Snapshot

variable {mine other : Snapshot} {strategy : ConflictStrategy}

theorem merge_of_version_gt {strategy : Option ConflictStrategy}
    (h : other.version < mine.version) :
    mine.merge other strategy = .keep .localNewer .reject mine := by
  have hcompare : mine.compare other = .localNewer := if_pos h
  unfold merge
  rw [hcompare]

theorem blends_of_decision (h : (mine.merge other (some strategy)).decision = .conflict .blended) :
    mine.Blends other strategy := by
  by_contra hnot
  by_cases hstrategy : strategy = .split
  · subst hstrategy
    unfold merge at h
    cases hcompare : mine.compare other <;> rw [hcompare] at h <;> exact nomatch h
  · rw [merge_of_not_blends hstrategy hnot] at h
    exact merge_lastWriter_ne_blended mine other h

/-- **Merging with the same copy again asks for nothing**, where both were not kept. -/
theorem merge_again (hversion : mine.version.toNat < UInt64.size - 1)
    (hsplits : ¬ mine.Splits other strategy) :
    ((mine.merge other (some strategy)).result.merge other (some strategy)).Idle := by
  have hsettles := merge_settles mine other (some strategy)
  have hsplit := merge_of_not_splits hsplits
  have hblends := @blends_of_decision mine other strategy
  generalize hmerge : mine.merge other (some strategy) = settlement at hsettles hsplit hblends ⊢
  cases hsettles with
  | keep comparison decision =>
    -- The copies are the same as before, and so is what the merge decides.
    show (mine.merge other (some strategy)).Idle
    rw [hmerge]
    exact ⟨rfl, rfl⟩
  | adopt =>
    have hequal : ({ other with id := mine.id } : Snapshot).compare other = .equal :=
      compare_eq_equal_iff.mpr ⟨rfl, rfl⟩
    show (Snapshot.merge { other with id := mine.id } other (some strategy)).Idle
    rw [merge_of_compare_equal hequal]
    exact ⟨rfl, rfl⟩
  | blend =>
    obtain ⟨heq, -⟩ := compare_eq_conflict_iff.mp (hblends rfl).conflict
    have hnewer : other.version < (mine.blend other).version := heq ▸ version_lt_blend hversion
    show ((mine.blend other).merge other (some strategy)).Idle
    rw [merge_of_version_gt hnewer]
    exact ⟨rfl, rfl⟩
  | split => exact nomatch hsplit

end Snapshot

namespace Store

variable {store after : Store} {id : MembraneId} {mine : Membrane} {settlement : Settlement}
  {sibling : Option MembraneId}

/-- Carrying out a settlement that asks for nothing. -/
theorem carryOut_of_idle (h : settlement.Idle) (store : Store) (id : MembraneId) :
    store.carryOut id settlement = ⟨.ok none, store⟩ := by
  rw [carryOut_of_split_eq_none h.split_eq]
  unfold adoptResult
  rw [h.changed_eq]
  rfl

theorem Carried.eq_of_idle (hcarried : store.Carried id mine settlement sibling after)
    (h : settlement.Idle) : after = store := by
  cases hcarried with
  | keep => rfl
  | install hchanged => exact nomatch h.changed_eq.symm.trans hchanged
  | beside _ hsplit => exact nomatch h.split_eq.symm.trans hsplit

end Store

namespace Engine

variable {σ τ : Type} [Outbound σ] [Outbound τ] {engine engine' : Engine σ} {again : Engine τ}
  {store after : Store} {id : MembraneId} {mine : Membrane} {remote : Snapshot}
  {strategy : ConflictStrategy} {receipt : Receipt}

/-- A whole snapshot is taken in and changes nothing when the merge asks for nothing. -/
theorem receiveWith_of_idle (hremote : remote.verify = .ok ())
    (hmine : store.membranes.find? id = some mine)
    (h : ((Snapshot.ofMembrane mine).merge remote (some strategy)).Idle) :
    (∃ receipt, (engine.receiveWith store id remote strategy).answer = .ok receipt) ∧
      (engine.receiveWith store id remote strategy).store = store := by
  cases hanswer : (engine.receiveWith store id remote strategy).answer with
  | error fault =>
    obtain ⟨_, -, hrefused⟩ := refused_of_receiveWith hremote hmine hanswer
    rw [Store.carryOut_of_idle h] at hrefused
    exact nomatch hrefused
  | ok receipt =>
    obtain ⟨_, _, _, -, hcarried, -⟩ := receiveWith_settled (Delivery.eq_of_answer hanswer) hmine
    exact ⟨⟨receipt, rfl⟩, hcarried.eq_of_idle h⟩

theorem reachable_of_receiveWith (hstore : store.Reachable)
    (hreceive : engine.receiveWith store id remote strategy = ⟨.ok receipt, engine', after⟩) :
    after.Reachable := by
  have hafter := hstore.delivery engine id remote strategy
  rwa [hreceive] at hafter

/-- A copy that is to be kept gets a membrane of its own, or there is no room for it. -/
theorem receiveWith_of_splits (engine : Engine σ) (hstore : store.Reachable)
    (hmine : store.membranes.find? id = some mine) (hremote : remote.verify = .ok ())
    (hadmits : store.config.limits.Admits remote.shape)
    (hsplits : (Snapshot.ofMembrane mine).Splits remote strategy) :
    (∃ receipt sibling, (engine.receiveWith store id remote strategy).answer = .ok receipt ∧
      receipt.sibling = some sibling ∧ store.GainsSibling
        (engine.receiveWith store id remote strategy).store mine.parent remote sibling) ∨
    ∃ refusal, (engine.receiveWith store id remote strategy).answer = .error (.refused refusal) ∧
      store.Exhausted mine.parent refusal ∧
      (engine.receiveWith store id remote strategy).store = store := by
  cases hanswer : (engine.receiveWith store id remote strategy).answer with
  | ok receipt =>
    obtain ⟨_, -, -, -, -, hrefines⟩ :=
      receiveWith_refines hstore.sound hmine (Delivery.eq_of_answer hanswer)
    rw [Snapshot.merge_of_splits hsplits] at hrefines
    obtain ⟨added, hsibling, hgains⟩ := hrefines.beside remote rfl
    exact Or.inl ⟨receipt, added, rfl, hsibling, hgains⟩
  | error fault =>
    obtain ⟨refusal, rfl, hcarry⟩ := refused_of_receiveWith hremote hmine hanswer
    obtain ⟨-, hexhausted⟩ := hstore.forest.carryOut_exhausted hstore.shallow hmine
      (Snapshot.merge_settles _ _ _) hremote hadmits hcarry
    exact Or.inr ⟨refusal, rfl, hexhausted, by rw [receiveWith_fault hanswer]⟩

/-- **A snapshot that comes in twice does what it does the first time,** unless it is in conflict
with the local copy and conflicts are split: the second delivery succeeds, and leaves the store
exactly as the first one did. A split leaves the local membrane as it was, both times, so the second
delivery keeps the copy in one more membrane with the same owner, or is refused because there is no
room for it. -/
theorem redelivery (again : Engine τ) (hstore : store.Reachable)
    (hmine : store.membranes.find? id = some mine) (hversion : mine.version.toNat < UInt64.size - 1)
    (hreceive : engine.receiveWith store id remote strategy = ⟨.ok receipt, engine', after⟩) :
    (¬ (Snapshot.ofMembrane mine).Splits remote strategy →
      (∃ receipt', (again.receiveWith after id remote strategy).answer = .ok receipt') ∧
        (again.receiveWith after id remote strategy).store = after) ∧
    ((Snapshot.ofMembrane mine).Splits remote strategy →
      after.membranes.find? id = some mine ∧
      (again.receiveWith after id remote strategy).store.membranes.find? id = some mine ∧
      ((∃ receipt' sibling, (again.receiveWith after id remote strategy).answer = .ok receipt' ∧
          receipt'.sibling = some sibling ∧ after.GainsSibling
            (again.receiveWith after id remote strategy).store mine.parent remote sibling) ∨
        ∃ refusal, (again.receiveWith after id remote strategy).answer = .error (.refused refusal) ∧
          after.Exhausted mine.parent refusal ∧
          (again.receiveWith after id remote strategy).store = after)) := by
  obtain ⟨current, sibling, sentOut, hremote, hcarried, hcurrent, rfl⟩ :=
    receiveWith_settled hreceive hmine
  have hsettles := Snapshot.merge_settles (.ofMembrane mine) remote (some strategy)
  constructor
  · intro hsplits
    obtain ⟨other, hother, hbecomes, -⟩ := receiveWith_refines hstore.sound hmine hreceive
    obtain rfl := Option.some.inj (hcurrent.symm.trans hother)
    -- The second merge starts from what the first one left.
    have hidle := Snapshot.merge_again hversion hsplits
    rw [← hbecomes.snapshot_eq] at hidle
    exact receiveWith_of_idle hremote hcurrent hidle
  · intro hsplits
    have hafter := reachable_of_receiveWith hstore hreceive
    have hconfig := (hcarried.steps hmine hsettles hremote).config_eq
    rw [Snapshot.merge_of_splits hsplits] at hcarried
    cases hcarried with
    | keep _ hsplit | install _ hsplit => exact nomatch hsplit
    | beside _ hsplit hroom =>
      obtain rfl := Option.some.inj hsplit
      have hgains := hroom.gainsSibling hstore.sound.find?_nextId hremote
      have hstill := hgains.find?_self hstore.sound hmine
      obtain ⟨hadmits, -⟩ := Store.checkRoom_eq_ok_iff.mp hroom.room
      -- The local copy has not changed, so the second merge splits as well.
      have hsecond := receiveWith_of_splits again hafter hstill hremote (hconfig ▸ hadmits) hsplits
      refine ⟨hstill, ?_, hsecond⟩
      obtain ⟨_, _, -, -, hgains'⟩ | ⟨_, -, -, hsame⟩ := hsecond
      · exact hgains'.find?_self hafter.sound hstill
      · rw [hsame]
        exact hstill

/-- What comes in for the lower membrane of `Store.nested` is averaged with it once. Kept beside it,
it fills the store, so that there is no room to keep it twice. -/
theorem redelivery_nested :
    let average := splitting.receiveWith Store.nested ⟨2⟩ (.ofPair 7 1 0x3F800000) .blend
    let pair := splitting.receiveWith Store.nested ⟨2⟩ (.ofPair 7 1 0x3F800000) .split
    (splitting.receiveWith average.store ⟨2⟩ (.ofPair 7 1 0x3F800000) .blend).store =
      average.store ∧
      average.store ≠ Store.nested ∧
      (splitting.receiveWith pair.store ⟨2⟩ (.ofPair 7 1 0x3F800000) .split).answer =
        .error (.refused (.capacity .membranes 3)) ∧
      (splitting.receiveWith pair.store ⟨2⟩ (.ofPair 7 1 0x3F800000) .split).store = pair.store ∧
      pair.store ≠ Store.nested := by
  intro average pair
  have hmine : Store.nested.membranes.find? ⟨2⟩ = some Store.nestedPair := by decide +kernel
  have hversion : Store.nestedPair.version.toNat < UInt64.size - 1 := by decide +kernel
  have haverage : average.answer = .ok ⟨⟨2⟩, .conflict, .conflict .blended, 2,
      checksumOf Snapshot.pairShape #[⟨0x3F000000⟩, ⟨0x3F000000⟩], none, true⟩ := by decide +kernel
  have hpair : pair.answer = .ok ⟨⟨2⟩, .conflict, .conflict .split, 1, Store.nestedPair.checksum,
      some ⟨3⟩, false⟩ := by decide +kernel
  have hfull : (splitting.receiveWith pair.store ⟨2⟩ (.ofPair 7 1 0x3F800000) .split).answer =
      .error (.refused (.capacity .membranes 3)) := by decide +kernel
  obtain ⟨hsame, -⟩ := redelivery splitting Store.reachable_nested hmine hversion
    (Delivery.eq_of_answer haverage)
  obtain ⟨-, hkept⟩ := redelivery splitting Store.reachable_nested hmine hversion
    (Delivery.eq_of_answer hpair)
  have hconflict :
      (Snapshot.ofMembrane Store.nestedPair).compare (.ofPair 7 1 0x3F800000) = .conflict := by
    decide +kernel
  obtain ⟨-, -, ⟨_, _, hanswer, -⟩ | ⟨_, -, -, hstore⟩⟩ := hkept ⟨rfl, hconflict⟩
  · exact nomatch hfull.symm.trans hanswer
  · obtain ⟨-, hstored⟩ := hsame fun hsplits => nomatch hsplits.strategy_eq
    exact ⟨hstored, by decide +kernel, hfull, hstore, by decide +kernel⟩

/-- With room for two more membranes, a copy that comes in twice is kept twice. -/
theorem not_redelivery_harmless :
    ¬ ∀ (engine engine' : Engine NoPeers) (store after : Store) (id : MembraneId) (mine : Membrane)
        (remote : Snapshot) (strategy : ConflictStrategy) (receipt : Receipt),
      store.Reachable → store.membranes.find? id = some mine → remote.verify = .ok () →
      mine.version.toNat < UInt64.size - 1 → remote.version.toNat < UInt64.size - 1 →
      engine.receiveWith store id remote strategy = ⟨.ok receipt, engine', after⟩ →
        (∃ receipt', (engine'.receiveWith after id remote strategy).answer = .ok receipt') ∧
          (engine'.receiveWith after id remote strategy).store = after := by
  intro hharmless
  have hmine : (Store.ofPair 3).membranes.find? ⟨1⟩ =
      some (.fresh ⟨1⟩ Snapshot.pairShape #[.zero, .zero] 100 none) := by decide +kernel
  have hanswer : (splitting.receiveWith (.ofPair 3) ⟨1⟩ (.ofPair 7 1 0x3F800000) .split).answer =
      .ok ⟨⟨1⟩, .conflict, .conflict .split, 1, Store.nestedPair.checksum, some ⟨2⟩, false⟩ := by
    decide +kernel
  obtain ⟨-, hsame⟩ := hharmless splitting _ _ _ ⟨1⟩ _ (.ofPair 7 1 0x3F800000) .split _
    ((Store.Reachable.empty _ _).after _) hmine (Snapshot.verify_ofPair _ _ _) (by decide +kernel)
    (by decide +kernel) (Delivery.eq_of_answer hanswer)
  revert hsame
  decide +kernel

end Engine

end Membranes
