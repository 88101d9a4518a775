import Mathlib.Data.List.Nodup
import Membranes.Proofs.Exchange.Calls
import Membranes.Proofs.Store.Census

/-!
# What an engine has counted

* `Tally.ofEntries` counts what is to be seen from outside in the entries of calls: the answers, the
  membranes made, and what was offered. `Entry.Balanced` is how these numbers are related.
* `Engine.call_tally`: a call adds to the counts of an engine what its entry counts for.
* `Engine.Journal` is any history of one engine, with calls on any stores. `Journal.balance` says that
  the engine has then counted what its entries show, modulo `2 ^ 64`, and how the counts balance while none
  of them has gone around.
-/

namespace Membranes

variable {σ : Type}

/-! ### Membranes made for a copy -/

/-- A delivery makes a membrane for its sibling, and no other. -/
theorem Entry.created_eq {entry : Entry} {sibling : Option MembraneId}
    (hcontains : ∀ id, entry.after.contains id = true ↔
      entry.before.contains id = true ∨ sibling = some id)
    (hnew : ∀ id, sibling = some id → entry.before.contains id = false) :
    entry.created = sibling.toList := by
  have hmem : ∀ id, id ∈ entry.created ↔ sibling = some id := by
    intro id
    unfold created
    rw [List.mem_filter, Store.mem_ids_iff, hcontains, Bool.not_eq_true']
    constructor
    · rintro ⟨hbefore | hsibling, hdead⟩
      · exact nomatch hbefore.symm.trans hdead
      · exact hsibling
    · intro hsibling
      exact ⟨Or.inr hsibling, hnew id hsibling⟩
  cases sibling with
  | none =>
    refine List.eq_nil_iff_forall_not_mem.mpr fun id hcreated => ?_
    exact nomatch (hmem id).mp hcreated
  | some added =>
    have hnodup : entry.created.Nodup := entry.after.nodup_ids.filter _
    refine List.perm_singleton.mp ((List.perm_ext_iff_of_nodup hnodup (List.nodup_singleton _)).mpr ?_)
    intro id
    rw [hmem, Option.some.injEq, List.mem_singleton, eq_comm]

theorem Entry.created_of_same {entry : Entry} (h : entry.after = entry.before) : entry.created = [] := by
  have hcreated : entry.created = (none : Option MembraneId).toList :=
    Entry.created_eq (fun id => by rw [h]; simp) (fun id hid => nomatch hid)
  exact hcreated

namespace Entry

variable (entry : Entry)

/-! ### What is to be seen of a call -/

/-- Whether a snapshot comes in. -/
def isDelivery : Bool := entry.call.delivery?.isSome

/-- Whether the snapshot that comes in is damaged. -/
def isDamaged : Bool := entry.call.delivery?.any fun (_, remote, _) => !remote.verify.isOk

/-- The receipt for a snapshot that was brought in. -/
def receipt? : Option Receipt :=
  match entry.answer with
  | .received (.ok receipt) => some receipt
  | _ => none

/-- Whether the store refused the snapshot that came in. -/
def isRefused : Bool :=
  match entry.answer with
  | .received (.error (.refused _)) => true
  | _ => false

/-- Whether a snapshot was brought in with a decision of a certain kind. -/
def decides (kind : Decision → Bool) : Bool := entry.receipt?.any fun receipt => kind receipt.decision

end Entry

/-- Whether there was a conflict. -/
def Decision.isConflict : Decision → Bool
  | .conflict _ => true
  | _ => false

/-! ### Counting entries -/

/-- A snapshot that was brought in was accepted, rejected or in conflict. -/
theorem Entry.countP_decides (entries : List Entry) :
    entries.countP (·.decides (· == .accept)) + entries.countP (·.decides (· == .reject)) +
      entries.countP (·.decides (·.isConflict)) = entries.countP (·.receipt?.isSome) := by
  induction entries with
  | nil => rfl
  | cons entry entries ih =>
    simp only [List.countP_cons, ← ih, Entry.decides]
    cases entry.receipt? with
    | none => simp
    | some receipt =>
      cases hdecision : receipt.decision <;> simp [hdecision, Decision.isConflict] <;> omega

/-- The relations that hold between the numbers of what entries show. -/
structure Entry.Balanced (entries : List Entry) : Prop where
  /-- A snapshot that comes in is damaged, brought in or refused. -/
  received_eq : entries.countP (·.isDelivery) = entries.countP (·.isDamaged) +
    entries.countP (·.receipt?.isSome) + entries.countP (·.isRefused)
  /-- A membrane is made, or an average taken, only for a conflict. -/
  conflicts_le : ((entries.filter (·.isDelivery)).flatMap (·.created)).length +
      entries.countP (·.decides (· == .conflict .blended)) ≤
    entries.countP (·.decides (·.isConflict))
  /-- A call offers one snapshot at most. -/
  offers_le : ∀ entry ∈ entries, entry.offers.length ≤ 1

namespace Entry

variable {entry : Entry} {entries others : List Entry} {id : MembraneId} {remote : Snapshot}
  {strategy : Option ConflictStrategy}

theorem balanced_nil : Balanced [] := ⟨rfl, Nat.le_refl _, fun _ h => absurd h List.not_mem_nil⟩

theorem Balanced.append (h : Balanced entries) (hothers : Balanced others) :
    Balanced (entries ++ others) where
  received_eq := by
    have := h.received_eq
    have := hothers.received_eq
    simp only [List.countP_append]
    omega
  conflicts_le := by
    have := h.conflicts_le
    have := hothers.conflicts_le
    simp only [List.countP_append, List.filter_append, List.flatMap_append, List.length_append]
    omega
  offers_le entry hentry := (List.mem_append.mp hentry).elim (h.offers_le entry) (hothers.offers_le entry)

/-- A call that brings no snapshot in is in balance. -/
theorem balanced_of_quiet (hdelivery : entry.call.delivery? = none) (hanswer : entry.receipt? = none)
    (hrefused : entry.isRefused = false) (hoffers : entry.offers.length ≤ 1) : Balanced [entry] where
  received_eq := by simp [isDelivery, isDamaged, hdelivery, hanswer, hrefused]
  conflicts_le := by simp [isDelivery, decides, hdelivery, hanswer]
  offers_le := by simpa using hoffers

/-- A snapshot that could not be brought in is either damaged or refused. -/
theorem balanced_of_fault (hdelivery : entry.call.delivery? = some (id, remote, strategy))
    (hanswer : entry.receipt? = none) (hrefused : entry.isRefused = remote.verify.isOk)
    (hoffers : entry.offers = []) (hcreated : entry.created = []) : Balanced [entry] where
  received_eq := by
    cases hverify : remote.verify.isOk <;>
      simp [isDelivery, isDamaged, hdelivery, hanswer, hrefused, hverify]
  conflicts_le := by simp [isDelivery, decides, hdelivery, hanswer, hcreated]
  offers_le := by simp [hoffers]

/-- A snapshot that was brought in makes a membrane only for a conflict that is split. -/
theorem balanced_of_receipt {receipt : Receipt}
    (hdelivery : entry.call.delivery? = some (id, remote, strategy)) (hremote : remote.verify = .ok ())
    (hanswer : entry.receipt? = some receipt) (hrefused : entry.isRefused = false)
    (hoffers : entry.offers.length ≤ 1) (hcreated : entry.created = receipt.sibling.toList)
    (hsibling : ∀ sibling, receipt.sibling = some sibling → receipt.decision = .conflict .split) :
    Balanced [entry] where
  received_eq := by
    have hverify : remote.verify.isOk = true := by rw [hremote]; rfl
    simp [isDelivery, isDamaged, hdelivery, hanswer, hrefused, hverify]
  conflicts_le := by
    cases hsome : receipt.sibling with
    | some sibling =>
      simp [isDelivery, decides, hdelivery, hanswer, hcreated, hsome, hsibling sibling hsome,
        Decision.isConflict]
    | none =>
      cases hdecision : receipt.decision with
      | accept | reject => simp [isDelivery, decides, hdelivery, hanswer, hcreated, hsome, hdecision]
      | conflict resolution =>
        cases resolution <;>
          simp [isDelivery, decides, hdelivery, hanswer, hcreated, hsome, hdecision, Decision.isConflict]
  offers_le := by simpa using hoffers

/-- Calls that each offer one snapshot at most do not offer more than there are calls. -/
theorem length_flatMap_offers_le (h : ∀ entry ∈ entries, entry.offers.length ≤ 1) :
    (entries.flatMap (·.offers)).length ≤ entries.length := by
  induction entries with
  | nil => exact Nat.le_refl _
  | cons entry entries ih =>
    have hfirst := h entry List.mem_cons_self
    have hrest := ih fun later hlater => h later (List.mem_cons_of_mem _ hlater)
    rw [List.flatMap_cons, List.length_append, List.length_cons]
    omega

/-- No more membranes are made than there are calls. -/
theorem Balanced.length_created_le (h : Balanced entries) :
    ((entries.filter (·.isDelivery)).flatMap (·.created)).length ≤ entries.length :=
  (Nat.le_add_right _ _).trans (h.conflicts_le.trans List.countP_le_length)

/-- No more copies are offered after a merge than there are calls. -/
theorem Balanced.length_rebroadcasts_le (h : Balanced entries) :
    ((entries.filter (·.isDelivery)).flatMap (·.offers)).length ≤ entries.length :=
  (length_flatMap_offers_le fun entry hentry => h.offers_le entry (List.mem_of_mem_filter hentry)).trans
    (List.length_filter_le _ _)

end Entry

namespace Tally

/-- What is to be counted in the entries of calls, in words. -/
def ofEntries (entries : List Entry) : Tally where
  received := .ofNat (entries.countP (·.isDelivery))
  corrupt := .ofNat (entries.countP (·.isDamaged))
  accepted := .ofNat (entries.countP (·.decides (· == .accept)))
  rejected := .ofNat (entries.countP (·.decides (· == .reject)))
  conflicts := .ofNat (entries.countP (·.decides (·.isConflict)))
  blends := .ofNat (entries.countP (·.decides (· == .conflict .blended)))
  splits := .ofNat ((entries.filter (·.isDelivery)).flatMap (·.created)).length
  sent := .ofNat ((entries.flatMap (·.offers)).countP (·.taken))
  unsent := .ofNat (((entries.filter (·.isDelivery)).flatMap (·.offers)).countP (!·.taken))

/-- Two tallies together. -/
def plus (tally other : Tally) : Tally where
  received := tally.received + other.received
  corrupt := tally.corrupt + other.corrupt
  accepted := tally.accepted + other.accepted
  rejected := tally.rejected + other.rejected
  conflicts := tally.conflicts + other.conflicts
  blends := tally.blends + other.blends
  splits := tally.splits + other.splits
  sent := tally.sent + other.sent
  unsent := tally.unsent + other.unsent

theorem ofEntries_append (entries others : List Entry) :
    ofEntries (entries ++ others) = (ofEntries entries).plus (ofEntries others) := by
  simp only [ofEntries, plus, List.countP_append, List.filter_append, List.flatMap_append,
    List.length_append, UInt64.ofNat_add]

theorem settled_ofEntries (entries : List Entry) :
    (ofEntries entries).accepted + (ofEntries entries).rejected + (ofEntries entries).conflicts =
      .ofNat (entries.countP (·.receipt?.isSome)) := by
  rw [← Entry.countP_decides, UInt64.ofNat_add, UInt64.ofNat_add]
  rfl

theorem received_ofEntries {entries : List Entry} (h : Entry.Balanced entries) :
    (ofEntries entries).received = (ofEntries entries).corrupt +
      .ofNat (entries.countP (·.receipt?.isSome)) + .ofNat (entries.countP (·.isRefused)) := by
  have hwords := congrArg UInt64.ofNat h.received_eq
  rw [UInt64.ofNat_add, UInt64.ofNat_add] at hwords
  exact hwords

theorem plus_zero (tally : Tally) : tally.plus zero = tally := by
  simp only [plus, zero, UInt64.add_zero]

theorem plus_plus (tally other last : Tally) :
    tally.plus (other.plus last) = (tally.plus other).plus last := by
  simp only [plus, UInt64.add_assoc]

/-- What a decision counts for. -/
theorem countDecision_eq (tally : Tally) (sibling : Option MembraneId) (decision : Decision) :
    tally.countReceived.countDecision sibling decision =
      tally.plus (zero.countReceived.countDecision sibling decision) := by
  cases decision with
  | accept | reject => simp [countDecision, countReceived, plus, zero]
  | conflict resolution =>
    cases resolution with
    | localWins | remoteWins | blended =>
      simp [countDecision, countResolution, countReceived, plus, zero]
    | split => cases sibling <;> simp [countDecision, countResolution, countReceived, plus, zero]

theorem countReceived_eq (tally : Tally) : tally.countReceived = tally.plus zero.countReceived := by
  simp [countReceived, plus, zero]

theorem countCorrupt_eq (tally : Tally) :
    tally.countReceived.countCorrupt = tally.plus zero.countReceived.countCorrupt := by
  simp [countReceived, countCorrupt, plus, zero]

theorem countSent_eq (tally : Tally) : tally.countSent = tally.plus { zero with sent := 1 } := by
  simp [countSent, plus, zero]

theorem countUnsent_eq (tally : Tally) : tally.countUnsent = tally.plus { zero with unsent := 1 } := by
  simp [countUnsent, plus, zero]

/-! ### One entry -/

variable {entry : Entry} {id : MembraneId} {remote : Snapshot} {strategy : Option ConflictStrategy}

/-- A call that brings no snapshot in counts for what it sends out. -/
theorem ofEntries_of_quiet (hdelivery : entry.call.delivery? = none) (hanswer : entry.receipt? = none) :
    ofEntries [entry] = { zero with sent := .ofNat (entry.offers.countP (·.taken)) } := by
  simp [ofEntries, zero, Entry.isDelivery, Entry.isDamaged, Entry.decides, hdelivery, hanswer]

/-- A snapshot that could not be brought in counts as such, and as damaged if it is. -/
theorem ofEntries_of_fault (hdelivery : entry.call.delivery? = some (id, remote, strategy))
    (hanswer : entry.receipt? = none) (hoffers : entry.offers = []) (hcreated : entry.created = []) :
    ofEntries [entry] =
      if remote.verify.isOk then zero.countReceived else zero.countReceived.countCorrupt := by
  cases hverify : remote.verify.isOk <;>
    simp [ofEntries, zero, countReceived, countCorrupt, Entry.isDelivery, Entry.isDamaged, Entry.decides,
      hdelivery, hanswer, hoffers, hcreated, hverify]

/-- A snapshot that was brought in counts for the decision, and for what was offered after it. -/
theorem ofEntries_of_receipt {receipt : Receipt}
    (hdelivery : entry.call.delivery? = some (id, remote, strategy)) (hremote : remote.verify = .ok ())
    (hanswer : entry.receipt? = some receipt) (hcreated : entry.created = receipt.sibling.toList)
    (hsibling : ∀ sibling, receipt.sibling = some sibling → receipt.decision = .conflict .split) :
    ofEntries [entry] = (zero.countReceived.countDecision receipt.sibling receipt.decision).plus
      { zero with
        sent := .ofNat (entry.offers.countP (·.taken))
        unsent := .ofNat (entry.offers.countP (!·.taken)) } := by
  have hverify : remote.verify.isOk = true := by rw [hremote]; rfl
  have hshare : ofEntries [entry] =
      { received := 1
        corrupt := 0
        accepted := .ofNat (if receipt.decision == .accept then 1 else 0)
        rejected := .ofNat (if receipt.decision == .reject then 1 else 0)
        conflicts := .ofNat (if receipt.decision.isConflict then 1 else 0)
        blends := .ofNat (if receipt.decision == .conflict .blended then 1 else 0)
        splits := .ofNat receipt.sibling.toList.length
        sent := .ofNat (entry.offers.countP (·.taken))
        unsent := .ofNat (entry.offers.countP (!·.taken)) } := by
    simp [ofEntries, Entry.isDelivery, Entry.isDamaged, Entry.decides, hdelivery, hanswer, hcreated, hverify,
      List.countP_cons]
  rw [hshare]
  cases hsome : receipt.sibling with
  | some sibling =>
    rw [hsibling sibling hsome]
    simp [plus, zero, countReceived, countDecision, countResolution, Decision.isConflict]
  | none =>
    cases receipt.decision with
    | accept | reject => simp [plus, zero, countReceived, countDecision, Decision.isConflict]
    | conflict resolution =>
      cases resolution <;>
        simp [plus, zero, countReceived, countDecision, countResolution, Decision.isConflict]

end Tally

/-! ### One call -/

namespace Store

variable {store after : Store} {id : MembraneId} {mine : Membrane} {settlement : Settlement}
  {sibling : Option MembraneId}

/-- The membrane made for a copy was not there before, and a split was decided. -/
theorem Carried.sibling_new (h : store.Sound) {remote : Snapshot}
    (hsettles : (Snapshot.ofMembrane mine).Settles remote settlement)
    (hcarried : store.Carried id mine settlement sibling after) {added : MembraneId}
    (hadded : sibling = some added) :
    store.contains added = false ∧ settlement.decision = .conflict .split := by
  cases hcarried with
  | keep | install => cases hadded
  | beside _ hsplit =>
    obtain rfl := Option.some.inj hadded
    refine ⟨by simp [Store.contains, IdMap.contains, h.find?_nextId], ?_⟩
    cases hsettles with
    | keep | adopt | blend => cases hsplit
    | split => rfl

end Store

namespace Engine

variable {engine : Engine (Transcript σ)} {store : Store} {call : Call} {id : MembraneId}
  {remote : Snapshot} {strategy : Option ConflictStrategy} {chosen : ConflictStrategy}

/-- The receipt for a settlement names the membrane that was made, if there is one. -/
theorem Absorbs.created {receipt : Receipt} {current : Snapshot} {engine' : Engine (Transcript σ)}
    {after : Store} (h : store.Sound)
    (habsorbs : engine.Absorbs store id remote chosen ⟨.ok (receipt, current), engine', after⟩) :
    engine'.tally = engine.tally.countReceived.countDecision receipt.sibling receipt.decision ∧
      remote.verify = .ok () ∧
      (∀ sibling, receipt.sibling = some sibling → receipt.decision = .conflict .split) ∧
      ∀ {entry : Entry}, entry.before = store → entry.after = after →
        entry.created = receipt.sibling.toList := by
  cases habsorbs with
  | settled hremote hmine hsettlement hcarried hcurrent =>
    have hsettles := hsettlement ▸ Snapshot.merge_settles (.ofMembrane _) remote (some chosen)
    refine ⟨rfl, hremote, fun sibling hsibling => (hcarried.sibling_new h hsettles hsibling).2, ?_⟩
    rintro entry rfl rfl
    refine Entry.created_eq (fun other => hcarried.contains_iff h hmine hsettles hremote) ?_
    exact fun other hother => (hcarried.sibling_new h hsettles hother).1

/-- A snapshot that comes in adds to the counts what its entry counts for. -/
theorem Receives.tally_eq (h : store.Sound) (hdelivery : call.delivery? = some (id, remote, strategy))
    {offers : List Offer} {delivery : Delivery (Transcript σ) Receipt}
    (hreceives : engine.Receives store id remote chosen offers delivery) :
    let entry : Entry := ⟨call, store, .received delivery.answer, offers, delivery.store⟩
    delivery.engine.tally = engine.tally.plus (.ofEntries [entry]) ∧ Entry.Balanced [entry] := by
  intro entry
  have hentry : entry.call.delivery? = some (id, remote, strategy) := hdelivery
  cases hreceives with
  | fault habsorbs =>
    have hcount := Tally.ofEntries_of_fault hentry rfl rfl (Entry.created_of_same rfl)
    refine ⟨?_, Entry.balanced_of_fault hentry rfl ?_ rfl (Entry.created_of_same rfl)⟩
    · rw [hcount]
      cases habsorbs with
      | corrupt hremote =>
        rw [hremote]
        exact engine.tally.countCorrupt_eq
      | refused hremote =>
        rw [hremote]
        exact engine.tally.countReceived_eq
    · cases habsorbs with
      | corrupt hremote | refused hremote =>
        rw [hremote]
        rfl
  | silent habsorbs =>
    obtain ⟨htally, hremote, hsibling, hcreated⟩ := habsorbs.created h
    have hcount := Tally.ofEntries_of_receipt hentry hremote rfl (hcreated rfl rfl) hsibling
    refine ⟨?_, Entry.balanced_of_receipt hentry hremote rfl rfl (Nat.zero_le _) (hcreated rfl rfl)
      hsibling⟩
    rw [hcount, htally, Tally.countDecision_eq]
    exact congrArg engine.tally.plus (Tally.plus_zero _).symm
  | offered habsorbs taken peers =>
    obtain ⟨htally, hremote, hsibling, hcreated⟩ := habsorbs.created h
    have hcount := Tally.ofEntries_of_receipt hentry hremote rfl (hcreated rfl rfl) hsibling
    refine ⟨?_, Entry.balanced_of_receipt hentry hremote rfl rfl (Nat.le_refl _) (hcreated rfl rfl)
      hsibling⟩
    rw [hcount, Tally.plus_plus]
    dsimp only [afterOffer]
    rw [htally, Tally.countDecision_eq]
    cases taken with
    | false => exact Tally.countUnsent_eq _
    | true => exact Tally.countSent_eq _

variable [Outbound σ]

/-- A call that brings no snapshot in counts for the snapshot that it sends out, if it does. -/
theorem call_quiet (engine : Engine (Transcript σ)) (store : Store) (hquiet : call.delivery? = none) :
    ∃ answer engine' after offers, engine.call store call = (answer, engine', after) ∧
      (∀ result, answer ≠ .received result) ∧
      engine'.outbound.offers = engine.outbound.offers ++ offers ∧ offers.length ≤ 1 ∧
      engine'.tally = engine.tally.plus { Tally.zero with sent := .ofNat (offers.countP (·.taken)) } := by
  have hsilent : engine.outbound.offers = engine.outbound.offers ++ [] := (List.append_nil _).symm
  have hnone : engine.tally = engine.tally.plus .zero := (Tally.plus_zero _).symm
  cases call with
  | receive | receiveWith | receiveShared => exact nomatch hquiet
  | forget id => exact ⟨_, _, _, [], rfl, fun _ => nofun, hsilent, Nat.zero_le _, hnone⟩
  | operate operation => exact ⟨_, _, _, [], rfl, fun _ => nofun, hsilent, Nat.zero_le _, hnone⟩
  | publish id =>
    have hcall : engine.call store (.publish id) =
      (.published (engine.publish store id).1, (engine.publish store id).2, store) := rfl
    rcases engine.publish_cases store id with
      ⟨refusal, -, hpublish⟩ | ⟨current, answer, taken, peers, -, hpublish⟩
    · rw [hpublish] at hcall
      exact ⟨_, _, _, [], hcall, fun _ => nofun, hsilent, Nat.zero_le _, hnone⟩
    · rw [hpublish] at hcall
      refine ⟨_, _, _, [⟨current, taken⟩], hcall, fun _ => nofun, rfl, Nat.le_refl _, ?_⟩
      cases taken with
      | false => exact hnone
      | true => exact engine.tally.countSent_eq

/-- **A call adds to the counts what its entry counts for.** -/
theorem call_tally (engine : Engine (Transcript σ)) (hstore : store.Reachable) (call : Call) :
    (engine.call store call).2.1.tally = engine.tally.plus (.ofEntries [engine.entry store call]) ∧
      Entry.Balanced [engine.entry store call] ∧
      (engine.call store call).2.1.outbound.offers =
        engine.outbound.offers ++ (engine.entry store call).offers := by
  cases hdelivery : call.delivery? with
  | some delivery =>
    obtain ⟨id, remote, strategy⟩ := delivery
    obtain ⟨offers, delivery, hreceives, hcall, hentry⟩ := engine.entry_of_delivery store hdelivery
    obtain ⟨htally, hbalances⟩ := hreceives.tally_eq hstore.sound hdelivery
    rw [hcall, hentry]
    exact ⟨htally, hbalances, hreceives.outbound_offers⟩
  | none =>
    obtain ⟨answer, engine', after, offers, hcall, hanswer, hoffers, hlength, htally⟩ :=
      engine.call_quiet store hdelivery
    have hentry : engine.entry store call = ⟨call, store, answer, offers, after⟩ := entry_eq hcall hoffers
    have hquiet : (engine.entry store call).receipt? = none ∧
        (engine.entry store call).isRefused = false := by
      rw [hentry]
      cases answer with
      | received result => exact absurd rfl (hanswer result)
      | published | forgotten | operated => exact ⟨rfl, rfl⟩
    have hbalanced : Entry.Balanced [engine.entry store call] :=
      Entry.balanced_of_quiet (hentry ▸ hdelivery) hquiet.1 hquiet.2 (hentry ▸ hlength)
    rw [Tally.ofEntries_of_quiet (hentry ▸ hdelivery) hquiet.1]
    refine ⟨?_, hbalanced, ?_⟩
    · rw [hcall, hentry]
      exact htally
    · rw [hcall, hentry]
      exact hoffers

/-! ### Histories -/

/-- An engine with its history: whatever it was called for, on whichever stores. -/
inductive Journal : Engine (Transcript σ) → List Entry → Prop
  /-- A new engine, which has not offered anything yet. -/
  | opening (policy : SyncPolicy) (peers : σ) : Journal (.ofPolicy policy ⟨peers, []⟩) []
  /-- One more call. -/
  | call {engine : Engine (Transcript σ)} {entries : List Entry} (h : Journal engine entries)
      {store : Store} (hstore : store.Reachable) (call : Call) :
      Journal (engine.call store call).2.1 (entries ++ [engine.entry store call])

variable {entries : List Entry}

/-- An engine has counted what its history shows, and that is in balance. -/
theorem Journal.counts (h : Journal engine entries) :
    engine.tally = .ofEntries entries ∧ Entry.Balanced entries ∧
      engine.outbound.offers = entries.flatMap (·.offers) := by
  induction h with
  | opening => exact ⟨rfl, Entry.balanced_nil, rfl⟩
  | @call engine entries _ store hstore call ih =>
    obtain ⟨htally, hbalanced, hoffers⟩ := ih
    obtain ⟨htally', hbalanced', hoffers'⟩ := engine.call_tally hstore call
    refine ⟨?_, hbalanced.append hbalanced', ?_⟩
    · rw [htally', htally, Tally.ofEntries_append]
    · rw [hoffers', hoffers, List.flatMap_append, List.flatMap_singleton]

/-- **The counts of an engine balance.** After any calls on any reachable stores, with any way out, an
engine has counted the snapshots that came in, and among them the damaged ones. Those that were brought
in were accepted, rejected or in conflict, and the others were refused by a store. A split counts once
for every membrane that was made, and an average for every conflict that was settled so, which together
are not more than the conflicts. It has counted the snapshots that the way out has taken, and those that
it has not taken after a merge.

The counts are words: all this holds modulo `2 ^ 64`, and of the numbers themselves as long as there were
less than `2 ^ 64` calls. -/
theorem Journal.balance (h : Journal engine entries) :
    engine.tally = .ofEntries entries ∧ engine.outbound.offers = entries.flatMap (·.offers) ∧
      engine.tally.accepted + engine.tally.rejected + engine.tally.conflicts =
        .ofNat (entries.countP (·.receipt?.isSome)) ∧
      engine.tally.received = engine.tally.corrupt +
        (engine.tally.accepted + engine.tally.rejected + engine.tally.conflicts) +
        .ofNat (entries.countP (·.isRefused)) ∧
      (entries.length < UInt64.size →
        (engine.tally.received : ℕ) = entries.countP (·.isDelivery) ∧
        (engine.tally.corrupt : ℕ) = entries.countP (·.isDamaged) ∧
        (engine.tally.accepted : ℕ) + engine.tally.rejected + engine.tally.conflicts =
          entries.countP (·.receipt?.isSome) ∧
        (engine.tally.received : ℕ) = engine.tally.corrupt +
          (engine.tally.accepted + engine.tally.rejected + engine.tally.conflicts) +
          entries.countP (·.isRefused) ∧
        (engine.tally.splits : ℕ) = ((entries.filter (·.isDelivery)).flatMap (·.created)).length ∧
        (engine.tally.blends : ℕ) = entries.countP (·.decides (· == .conflict .blended)) ∧
        (engine.tally.splits : ℕ) + engine.tally.blends ≤ engine.tally.conflicts ∧
        (engine.tally.sent : ℕ) = engine.outbound.offers.countP (·.taken) ∧
        (engine.tally.unsent : ℕ) =
          ((entries.filter (·.isDelivery)).flatMap (·.offers)).countP (!·.taken)) := by
  obtain ⟨htally, hbalanced, hoffers⟩ := h.counts
  rw [hoffers, htally, Tally.settled_ofEntries]
  refine ⟨rfl, rfl, rfl, Tally.received_ofEntries hbalanced, fun hlength => ?_⟩
  have hword {n : ℕ} (hle : n ≤ entries.length) : (UInt64.ofNat n).toNat = n :=
    UInt64.toNat_ofNat_of_lt' (hle.trans_lt hlength)
  have hoffered := Entry.length_flatMap_offers_le hbalanced.offers_le
  -- Each count is a number of entries, or of what no entry has more than one of.
  dsimp only [Tally.ofEntries]
  rw [hword List.countP_le_length, hword List.countP_le_length, hword List.countP_le_length,
    hword List.countP_le_length, hword List.countP_le_length, hword List.countP_le_length,
    hword hbalanced.length_created_le, hword (List.countP_le_length.trans hoffered),
    hword (List.countP_le_length.trans hbalanced.length_rebroadcasts_le), Entry.countP_decides]
  exact ⟨rfl, rfl, rfl, hbalanced.received_eq, rfl, rfl, hbalanced.conflicts_le, rfl, rfl⟩

/-- A run of calls on one store goes on with a history. -/
theorem Journal.serve (h : Journal engine entries) (hstore : store.Reachable) (calls : List Call) :
    Journal (engine.serve store calls).engine (entries ++ (engine.serve store calls).entries) := by
  induction calls generalizing engine store entries with
  | nil => exact (List.append_nil entries).symm ▸ h
  | cons call calls ih =>
    have hrest := ih (h.call hstore call) (engine.call_reachable hstore call)
    rwa [List.append_assoc] at hrest

/-- Deliveries of all kinds: damaged, for a membrane that is not there, put beside the local copy,
averaged with it, and older than it. A publication follows. -/
def motley : List Call :=
  [.receive ⟨1⟩ { Snapshot.ofPair 7 1 0x3F800000 with checksum := 0 },
    .receive ⟨9⟩ (.ofPair 7 1 0x3F800000), .receiveShared ⟨1⟩ (.ofPair 7 1 0x3F800000),
    .receiveWith ⟨1⟩ (.ofPair 7 1 0x3F800000) .blend, .forget ⟨1⟩,
    .receive ⟨1⟩ (.ofPair 7 1 0x3F800000), .publish ⟨1⟩]

/-- Of the three copies that are offered here, the second one is taken. -/
theorem Journal.balance_motley :
    let service := (ofPolicy ⟨.split, true⟩ ⟨Fickle.mk false, []⟩).serve (.ofPair 2) motley
    Journal service.engine service.entries ∧ service.entries.length < UInt64.size ∧
      service.engine.tally = ⟨5, 1, 0, 1, 2, 1, 1, 1, 1⟩ ∧
      service.entries.countP (·.isDelivery) = 5 ∧ service.entries.countP (·.isDamaged) = 1 ∧
      service.entries.countP (·.receipt?.isSome) = 3 ∧ service.entries.countP (·.isRefused) = 1 ∧
      ((service.entries.filter (·.isDelivery)).flatMap (·.created)).length = 1 ∧
      service.engine.outbound.offers.countP (·.taken) = 1 := by
  intro service
  have hjournal : Journal service.engine service.entries :=
    (Journal.opening ⟨.split, true⟩ (Fickle.mk false)).serve ((Store.Reachable.empty _ _).after _) motley
  have htally : service.engine.tally = ⟨5, 1, 0, 1, 2, 1, 1, 1, 1⟩ := by decide +kernel
  have hlength : service.entries.length < UInt64.size := by decide +kernel
  obtain ⟨-, -, -, -, hnumbers⟩ := hjournal.balance
  obtain ⟨hreceived, hcorrupt, hsettled, hrefused, hsplits, -, -, hsent, -⟩ := hnumbers hlength
  rw [htally] at hreceived hcorrupt hsettled hrefused hsplits hsent
  refine ⟨hjournal, hlength, htally, hreceived.symm, hcorrupt.symm, hsettled.symm, ?_, hsplits.symm,
    hsent.symm⟩
  have hfive : 5 = 1 + (0 + 1 + 2) + service.entries.countP (·.isRefused) := hrefused
  omega

end Engine

end Membranes
