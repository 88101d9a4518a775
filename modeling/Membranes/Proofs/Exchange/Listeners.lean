import Membranes.Proofs.Exchange.Calls

/-!
# Who listens does not matter

Two engines that agree in their policy and in what they remember (`Engine.Agrees`) answer every call
alike, whatever their ways out make of the copies that they are offered.

* `Engine.absorb_agrees`: bringing a snapshot in does not ask the way out at all.
* `Engine.call_parallel`: one call. Both ways out are offered the same copies, and the answers differ at
  most in whether these were taken (`Entry.Alike`).
* `Engine.listeners_change_nothing`: so it is after any run of calls, and each copy that is offered
  after a merge is the one that the merge left.
-/

namespace Membranes

variable {ρ σ τ : Type}

/-! ### Another way out -/

/-- The engine with another way out, which has not been offered anything yet. -/
def Engine.through (engine : Engine ρ) (peers : σ) : Engine (Transcript σ) where
  policy := engine.policy
  outbound := ⟨peers, []⟩
  standings := engine.standings
  tally := engine.tally

/-! ### What may differ -/

/-- Two answers to one call which differ at most in what the way out has made of a copy. -/
inductive Answer.Alike : Answer → Answer → Prop
  /-- A snapshot was brought in. -/
  | received (receipt : Receipt) (taken taken' : Bool) :
      Alike (.received (.ok { receipt with sentOut := taken }))
        (.received (.ok { receipt with sentOut := taken' }))
  /-- A snapshot was not brought in, for the same reason. -/
  | fault (fault : ExchangeFault) : Alike (.received (.error fault)) (.received (.error fault))
  /-- There was nothing to publish. -/
  | unpublishable (refusal : Refusal) :
      Alike (.published (.error (.refused refusal))) (.published (.error (.refused refusal)))
  /-- A copy was published, and the way out has said what became of it. -/
  | published (result result' : Except ExchangeFault Snapshot) :
      Alike (.published result) (.published result')
  | forgotten : Alike .forgotten .forgotten
  | operated (result : Except Refusal Reply) : Alike (.operated result) (.operated result)

/-- Two entries for one call which differ at most in what the way out has made of a copy. -/
structure Entry.Alike (first second : Entry) : Prop where
  call_eq : first.call = second.call
  before_eq : first.before = second.before
  answer : first.answer.Alike second.answer
  /-- The same copies were offered. -/
  offers_eq : first.offers.map (·.snapshot) = second.offers.map (·.snapshot)
  after_eq : first.after = second.after

/-- The same copies were offered in the same order. -/
theorem Entry.flatMap_offers_eq {first second : List Entry} (h : List.Forall₂ Entry.Alike first second) :
    first.flatMap (·.offers.map (·.snapshot)) = second.flatMap (·.offers.map (·.snapshot)) := by
  induction h with
  | nil => rfl
  | cons halike _ ih => rw [List.flatMap_cons, List.flatMap_cons, halike.offers_eq, ih]

namespace Engine

/-- Two engines have the same policy and remember the same. -/
structure Agrees (engine : Engine σ) (other : Engine τ) : Prop where
  policy_eq : engine.policy = other.policy
  standings_eq : engine.standings = other.standings

/-! ### Bringing a snapshot in -/

/-- Engines that agree bring a snapshot in alike. -/
theorem absorb_agrees {engine : Engine σ} {other : Engine τ} (h : engine.Agrees other) (store : Store)
    (id : MembraneId) (remote : Snapshot) (strategy : ConflictStrategy) :
    (engine.absorb store id remote strategy).answer = (other.absorb store id remote strategy).answer ∧
      (engine.absorb store id remote strategy).store = (other.absorb store id remote strategy).store ∧
      (engine.absorb store id remote strategy).engine.Agrees
        (other.absorb store id remote strategy).engine := by
  obtain ⟨hpolicy, hstandings⟩ := h
  unfold absorb
  cases remote.verify with
  | error fault => exact ⟨rfl, rfl, hpolicy, hstandings⟩
  | ok _ =>
    cases store.snapshot id with
    | error refusal => exact ⟨rfl, rfl, hpolicy, hstandings⟩
    | ok mine =>
      dsimp only
      cases store.carryOut id (mine.merge remote (some strategy)) with
      | mk answer after =>
        cases answer with
        | error refusal => exact ⟨rfl, rfl, hpolicy, hstandings⟩
        | ok sibling =>
          dsimp only
          have hremembered : engine.standings.insert id (.ofDecision sibling
              (mine.merge remote (some strategy)).decision) = other.standings.insert id (.ofDecision sibling
            (mine.merge remote (some strategy)).decision) := by rw [hstandings]
          cases after.snapshot id with
          | error refusal => exact ⟨rfl, rfl, hpolicy, hremembered⟩
          | ok current =>
            refine ⟨?_, rfl, hpolicy, hremembered⟩
            unfold receipt
            dsimp only [remember]
            rw [hpolicy]

/-! ### One call -/

/-- What two engines make of one call differs at most in what their ways out have made of a copy. -/
structure Parallel (engine : Engine (Transcript σ)) (other : Engine (Transcript τ))
    (first : Answer × Engine (Transcript σ) × Store)
    (second : Answer × Engine (Transcript τ) × Store) : Prop where
  answer : first.1.Alike second.1
  agrees : first.2.1.Agrees second.2.1
  store_eq : first.2.2 = second.2.2
  /-- Both have been offered the same copies. -/
  offers : ∃ offers offers', first.2.1.outbound.offers = engine.outbound.offers ++ offers ∧
    second.2.1.outbound.offers = other.outbound.offers ++ offers' ∧
      offers.map (·.snapshot) = offers'.map (·.snapshot)

variable {engine : Engine (Transcript σ)} {other : Engine (Transcript τ)} {store : Store}

/-- Offering one copy to both ways out, after two engines have come to agree without them. -/
theorem Agrees.parallel_offer {engine' : Engine (Transcript σ)} {other' : Engine (Transcript τ)}
    (h : engine'.Agrees other') (hfirst : engine'.outbound = engine.outbound)
    (hsecond : other'.outbound = other.outbound) {answer answer' : Answer}
    (hanswer : answer.Alike answer') (current : Snapshot) (taken taken' : Bool) (peers : σ)
    (peers' : τ) (tally tally' : Tally) (after : Store) :
    Parallel engine other (answer, engine'.afterOffer current taken peers tally, after)
      (answer', other'.afterOffer current taken' peers' tally', after) where
  answer := hanswer
  agrees := ⟨h.policy_eq, h.standings_eq⟩
  store_eq := rfl
  offers := ⟨[⟨current, taken⟩], [⟨current, taken'⟩], by rw [← hfirst]; rfl, by rw [← hsecond]; rfl, rfl⟩

theorem Agrees.parallel_silent {engine' : Engine (Transcript σ)} {other' : Engine (Transcript τ)}
    (h : engine'.Agrees other') (hfirst : engine'.outbound = engine.outbound)
    (hsecond : other'.outbound = other.outbound) {answer answer' : Answer}
    (hanswer : answer.Alike answer') (after : Store) :
    Parallel engine other (answer, engine', after) (answer', other', after) where
  answer := hanswer
  agrees := h
  store_eq := rfl
  offers := ⟨[], [], by rw [List.append_nil, ← hfirst], by rw [List.append_nil, ← hsecond], rfl⟩

variable [Outbound σ] [Outbound τ]

theorem receiveWith_parallel (h : engine.Agrees other) (id : MembraneId) (remote : Snapshot)
    (strategy : ConflictStrategy) :
    let delivery := engine.receiveWith store id remote strategy
    let delivery' := other.receiveWith store id remote strategy
    Parallel engine other (.received delivery.answer, delivery.engine, delivery.store)
      (.received delivery'.answer, delivery'.engine, delivery'.store) := by
  obtain ⟨hanswer, hstore, hagrees⟩ := absorb_agrees h store id remote strategy
  have hfirst := (engine.absorb_absorbs store id remote strategy).outbound_eq
  have hsecond := (other.absorb_absorbs store id remote strategy).outbound_eq
  cases habsorb : engine.absorb store id remote strategy with
  | mk answer engine' after =>
    cases habsorb' : other.absorb store id remote strategy with
    | mk answer' other' after' =>
      rw [habsorb] at hanswer hstore hagrees hfirst
      rw [habsorb'] at hanswer hstore hagrees hsecond
      obtain rfl : answer = answer' := hanswer
      obtain rfl : after = after' := hstore
      cases answer with
      | error fault =>
        rw [receiveWith_of_error habsorb, receiveWith_of_error habsorb']
        exact hagrees.parallel_silent hfirst hsecond (.fault fault) after
      | ok absorbed =>
        obtain ⟨receipt, current⟩ := absorbed
        rw [receiveWith_eq_sendOut habsorb, receiveWith_eq_sendOut habsorb']
        cases hsends : receipt.sentOut with
        | false =>
          rw [sendOut_of_silent engine' hsends, sendOut_of_silent other' hsends]
          exact hagrees.parallel_silent hfirst hsecond
            (.received receipt receipt.sentOut receipt.sentOut) after
        | true =>
          obtain ⟨taken, peers, hsend⟩ := engine'.sendOut_of_offer current hsends
          obtain ⟨taken', peers', hsend'⟩ := other'.sendOut_of_offer current hsends
          rw [hsend, hsend']
          exact hagrees.parallel_offer hfirst hsecond (.received receipt taken taken') current _ _ _ _
            _ _ after

theorem publish_parallel (h : engine.Agrees other) (id : MembraneId) :
    Parallel engine other
      (.published (engine.publish store id).1, (engine.publish store id).2, store)
      (.published (other.publish store id).1, (other.publish store id).2, store) := by
  rcases engine.publish_cases store id with
    ⟨refusal, hnone, hpublish⟩ | ⟨current, answer, taken, peers, hcurrent, hpublish⟩ <;>
  rcases other.publish_cases store id with
    ⟨refusal', hnone', hpublish'⟩ | ⟨current', answer', taken', peers', hcurrent', hpublish'⟩
  · obtain rfl := Except.error.inj (hnone.symm.trans hnone')
    rw [hpublish, hpublish']
    exact h.parallel_silent rfl rfl (.unpublishable refusal) store
  · exact nomatch hnone.symm.trans hcurrent'
  · exact nomatch hcurrent.symm.trans hnone'
  · obtain rfl := Except.ok.inj (hcurrent.symm.trans hcurrent')
    rw [hpublish, hpublish']
    exact h.parallel_offer rfl rfl (.published answer answer') current _ _ _ _ _ _ store

/-- **Engines that agree make the same of a call.** -/
theorem call_parallel (h : engine.Agrees other) (call : Call) :
    Parallel engine other (engine.call store call) (other.call store call) := by
  cases hdelivery : call.delivery? with
  | some delivery =>
    obtain ⟨id, remote, strategy⟩ := delivery
    rw [engine.call_of_delivery store hdelivery, other.call_of_delivery store hdelivery, h.policy_eq]
    exact receiveWith_parallel h id remote _
  | none =>
    cases call with
    | receive | receiveWith | receiveShared => exact nomatch hdelivery
    | publish id => exact publish_parallel h id
    | forget id =>
      have hforgotten : (engine.forget id).Agrees (other.forget id) :=
        ⟨h.policy_eq, congrArg (·.erase id) h.standings_eq⟩
      have hfirst : (engine.forget id).outbound = engine.outbound := rfl
      have hsecond : (other.forget id).outbound = other.outbound := rfl
      exact hforgotten.parallel_silent hfirst hsecond .forgotten store
    | operate operation => exact h.parallel_silent rfl rfl (.operated _) _

theorem Parallel.entry_alike {call : Call}
    (h : Parallel engine other (engine.call store call) (other.call store call)) :
    (engine.entry store call).Alike (other.entry store call) := by
  obtain ⟨offers, offers', hfirst, hsecond, hoffers⟩ := h.offers
  rw [entry_eq rfl hfirst, entry_eq rfl hsecond]
  exact ⟨rfl, rfl, h.answer, hoffers, h.store_eq⟩

/-! ### Runs -/

/-- What holds of every call on a reachable store holds of all entries of a run. -/
theorem forall_mem_entries {motive : Entry → Prop}
    (hcall : ∀ (engine : Engine (Transcript σ)) {store : Store}, store.Reachable → ∀ call,
      motive (engine.entry store call))
    (engine : Engine (Transcript σ)) (hstore : store.Reachable) (calls : List Call) :
    ∀ entry ∈ (engine.serve store calls).entries, motive entry := by
  induction calls generalizing engine store with
  | nil => exact fun _ hmem => absurd hmem List.not_mem_nil
  | cons call calls ih =>
    intro entry hmem
    rcases List.mem_cons.mp hmem with rfl | hmem
    · exact hcall engine hstore call
    · exact ih _ (engine.call_reachable hstore call) entry hmem

/-- What was offered on the way out is what the entries say. -/
theorem serve_offers (engine : Engine (Transcript σ)) (store : Store) (calls : List Call) :
    (engine.serve store calls).engine.outbound.offers =
      engine.outbound.offers ++ (engine.serve store calls).entries.flatMap (·.offers) := by
  induction calls generalizing engine store with
  | nil => exact (List.append_nil _).symm
  | cons call calls ih =>
    have hparallel : Parallel engine engine (engine.call store call) (engine.call store call) :=
      call_parallel ⟨rfl, rfl⟩ call
    obtain ⟨offers, -, hoffers, -⟩ := hparallel.offers
    have hentry := entry_eq rfl hoffers
    show (serve (engine.call store call).2.1 (engine.call store call).2.2 calls).engine.outbound.offers =
      engine.outbound.offers ++ (engine.entry store call :: _).flatMap (·.offers)
    rw [ih, hoffers, hentry, List.flatMap_cons, List.append_assoc]
    rfl

/-- Engines that agree make the same of a run of calls. -/
theorem serve_alike (h : engine.Agrees other) (store : Store) (calls : List Call) :
    List.Forall₂ Entry.Alike (engine.serve store calls).entries (other.serve store calls).entries ∧
      (engine.serve store calls).engine.Agrees (other.serve store calls).engine ∧
      (engine.serve store calls).store = (other.serve store calls).store := by
  induction calls generalizing engine other store with
  | nil => exact ⟨.nil, h, rfl⟩
  | cons call calls ih =>
    have hparallel : Parallel engine other (engine.call store call) (other.call store call) :=
      call_parallel h call
    obtain ⟨hentries, hagrees, hstore⟩ := ih hparallel.agrees (engine.call store call).2.2
    unfold serve
    dsimp only
    rw [← hparallel.store_eq]
    exact ⟨.cons hparallel.entry_alike hentries, hagrees, hstore⟩

/-- What is offered after a merge is what the merge has left, and the answer tells whether it was
taken. -/
theorem offer_of_delivery (engine : Engine (Transcript σ)) (hstore : store.Reachable) {call : Call}
    {id : MembraneId} {remote : Snapshot} {strategy : Option ConflictStrategy}
    (hdelivery : call.delivery? = some (id, remote, strategy)) {offer : Offer}
    (hoffer : offer ∈ (engine.entry store call).offers) :
    (engine.entry store call).offers = [offer] ∧
      (∃ receipt, (engine.entry store call).answer = .received (.ok receipt) ∧
        receipt.sentOut = offer.taken) ∧
      (engine.entry store call).after.snapshot id = .ok offer.snapshot ∧
      offer.snapshot.verify = .ok () := by
  obtain ⟨offers, delivery, hreceives, hcall, hentry⟩ := engine.entry_of_delivery store hdelivery
  have hafter := engine.call_reachable hstore call
  rw [hcall] at hafter
  rw [hentry] at hoffer ⊢
  cases hreceives with
  | fault | silent => exact absurd hoffer List.not_mem_nil
  | offered habsorbs taken peers =>
    obtain rfl := List.mem_singleton.mp hoffer
    cases habsorbs with
    | settled _ _ _ _ hcurrent =>
      exact ⟨rfl, ⟨_, rfl, rfl⟩, Store.snapshot_of_find? hcurrent,
        (hafter.sound.membrane hcurrent).verify⟩

/-- **Who listens does not matter.** A run of calls is carried out twice, from the same engine and the
same reachable store, with two ways out that take or refuse what they like. Both runs leave the same
store, and both engines remember the same. Every call is answered alike, but for whether a copy was
taken, and the same copies are offered in the same order. A copy that is offered after a merge is the one
that the merge has left, and whole; when it is not taken, the receipt says so. -/
theorem listeners_change_nothing (engine : Engine ρ) (peers : σ) (peers' : τ)
    (hstore : store.Reachable) (calls : List Call) :
    let first := (engine.through peers).serve store calls
    let second := (engine.through peers').serve store calls
    first.store = second.store ∧
      first.engine.standings = second.engine.standings ∧
      List.Forall₂ Entry.Alike first.entries second.entries ∧
      first.engine.outbound.offers.map (·.snapshot) =
        second.engine.outbound.offers.map (·.snapshot) ∧
      first.engine.outbound.offers = first.entries.flatMap (·.offers) ∧
      ∀ entry ∈ first.entries, ∀ id remote strategy,
        entry.call.delivery? = some (id, remote, strategy) →
        ∀ offer ∈ entry.offers, entry.offers = [offer] ∧
          (∃ receipt, entry.answer = .received (.ok receipt) ∧ receipt.sentOut = offer.taken) ∧
          entry.after.snapshot id = .ok offer.snapshot ∧ offer.snapshot.verify = .ok () := by
  intro first second
  have hagrees : (engine.through peers).Agrees (engine.through peers') := ⟨rfl, rfl⟩
  obtain ⟨hentries, hend, hstores⟩ := serve_alike hagrees store calls
  have hoffers : first.engine.outbound.offers = first.entries.flatMap (·.offers) :=
    (engine.through peers).serve_offers store calls
  have hoffers' : second.engine.outbound.offers = second.entries.flatMap (·.offers) :=
    (engine.through peers').serve_offers store calls
  refine ⟨hstores, hend.standings_eq, hentries, ?_, hoffers, ?_⟩
  · rw [hoffers, hoffers', List.map_flatMap, List.map_flatMap, Entry.flatMap_offers_eq hentries]
  · refine forall_mem_entries ?_ (engine.through peers) hstore calls
    intro engine store hstore call id remote strategy hdelivery offer hoffer
    exact engine.offer_of_delivery hstore hdelivery hoffer

/-- Calls of which three offer a copy: a conflict that is averaged, a copy that has been overtaken by that,
and a publication. -/
def offering : List Call :=
  [.receiveWith ⟨1⟩ (.ofPair 7 1 0x3F800000) .blend, .receive ⟨1⟩ (.ofPair 7 1 0x3F800000),
    .forget ⟨1⟩, .publish ⟨1⟩, .operate (.fill ⟨1⟩ .zero)]

/-- Among peers that take everything, and before one that takes every other copy. -/
theorem listeners_change_nothing_offering :
    (Store.ofPair 2).Reachable ∧
      ((splitting.through NoPeers.mk).serve (.ofPair 2) offering).engine.outbound.offers.map (·.taken) =
        [true, true, true] ∧
      ((splitting.through (Fickle.mk false)).serve (.ofPair 2) offering).engine.outbound.offers.map
          (·.taken) = [false, true, false] ∧
      ((splitting.through NoPeers.mk).serve (.ofPair 2) offering).store =
        ((splitting.through (Fickle.mk false)).serve (.ofPair 2) offering).store ∧
      ((splitting.through NoPeers.mk).serve (.ofPair 2) offering).engine.outbound.offers.map
          (·.snapshot) =
        ((splitting.through (Fickle.mk false)).serve (.ofPair 2) offering).engine.outbound.offers.map
          (·.snapshot) := by
  have hreachable : (Store.ofPair 2).Reachable := (Store.Reachable.empty _ _).after _
  obtain ⟨hstores, -, -, hoffers, -⟩ :=
    listeners_change_nothing splitting NoPeers.mk (Fickle.mk false) hreachable offering
  refine ⟨hreachable, ?_, ?_, hstores, hoffers⟩
  · decide +kernel
  · decide +kernel

end Engine

end Membranes
