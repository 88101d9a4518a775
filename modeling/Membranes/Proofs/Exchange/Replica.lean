import Membranes.Proofs.Exchange.Refinement

/-!
# Replicas

A replica is a store with an engine whose way out remembers what it has taken (`Outbox`): all of that is
in flight, and may arrive anywhere, at any time and any number of times.

* `Replica.Sane` is what holds of every replica of a membrane, and of all that it has in flight.
* `Replica.Advances` compares two moments of a replica: the stamp of its copy does not go back, and what
  was sent in between is no older than the copy at the first moment.
* `Sane.mutate`, `Sane.publish` and `Sane.receive`: a replica stays sane and advances. With the
  last writer, what a replica receives is never refused, and the greater stamp stays.
-/

namespace Membranes

variable {σ : Type}

/-! ### The way out -/

/-- A way out that remembers what it has taken. -/
structure Outbox (σ : Type) where
  /-- The way out itself. -/
  peers : σ
  /-- The snapshots taken, in order. -/
  sent : List Snapshot

/-- Offers a snapshot, and remembers it if it is taken. -/
def Outbox.offer [Outbound σ] (outbox : Outbox σ) (snapshot : Snapshot) :
    Except ExchangeFault Unit × Outbox σ :=
  match Outbound.offer outbox.peers snapshot with
  | (.ok (), peers) => (.ok (), ⟨peers, outbox.sent ++ [snapshot]⟩)
  | (.error fault, peers) => (.error fault, ⟨peers, outbox.sent⟩)

instance [Outbound σ] : Outbound (Outbox σ) := ⟨Outbox.offer⟩

/-- At most the snapshot offered is added to what was sent. -/
theorem Engine.Offers.sent_eq [Outbound σ] {outbox outbox' : Outbox σ} {snapshot : Snapshot}
    (h : Engine.Offers outbox snapshot outbox') :
    outbox'.sent = outbox.sent ∨ outbox'.sent = outbox.sent ++ [snapshot] := by
  rcases h with rfl | rfl
  · exact Or.inl rfl
  · show (outbox.offer snapshot).2.sent = _ ∨ (outbox.offer snapshot).2.sent = _
    unfold Outbox.offer
    split
    · exact Or.inr rfl
    · exact Or.inl rfl

/-! ### Replicas and their copies -/

/-- A store with the engine that keeps it up to date. -/
structure Replica (σ : Type) where
  store : Store
  engine : Engine (Outbox σ)

namespace Replica

/-- What a replica has put in flight. -/
def sent (replica : Replica σ) : List Snapshot := replica.engine.outbound.sent

/-- The stamp of the copy of a membrane; that of no copy is the least. -/
def stamp (id : MembraneId) (replica : Replica σ) : ℕ ×ₗ ℕ :=
  match replica.store.snapshot id with
  | .ok copy => copy.stamp
  | .error _ => toLex (0, 0)

theorem stamp_of_find? {replica : Replica σ} {id : MembraneId} {membrane : Membrane}
    (h : replica.store.membranes.find? id = some membrane) :
    replica.stamp id = (Snapshot.ofMembrane membrane).stamp := by
  unfold stamp
  rw [Store.snapshot_of_find? h]

end Replica

/-! ### Sane replicas -/

/-- A snapshot that every replica of a membrane can take: it is whole, one of the membrane, and within
the limits. -/
structure Snapshot.Travels (limits : Limits) (id : MembraneId) (snapshot : Snapshot) : Prop where
  verify : snapshot.verify = .ok ()
  id_eq : snapshot.id = id
  admits : limits.Admits snapshot.shape

theorem Membrane.Sound.travels {limits : Limits} {id : MembraneId} {membrane : Membrane}
    (h : membrane.Sound limits id) : (Snapshot.ofMembrane membrane).Travels limits id :=
  ⟨h.verify, h.id_eq, h.admits⟩

namespace Replica

/-- What holds of a replica of a membrane whose conflicts fall to the last writer. -/
structure Sane (limits : Limits) (id : MembraneId) (replica : Replica σ) : Prop where
  sound : replica.store.Sound
  live : ∃ membrane, replica.store.membranes.find? id = some membrane
  limits_eq : replica.store.config.limits = limits
  strategy_eq : replica.engine.policy.strategy = .lastWriterWins
  /-- All that is in flight can be taken. -/
  travels : ∀ snapshot ∈ replica.sent, snapshot.Travels limits id
  /-- The copy is no older than what is in flight. -/
  sent_le : ∀ snapshot ∈ replica.sent, snapshot.stamp ≤ replica.stamp id

/-- What holds of a replica at two moments, one after the other. -/
structure Advances (id : MembraneId) (before after : Replica σ) : Prop where
  /-- The stamp does not go back. -/
  stamp_le : before.stamp id ≤ after.stamp id
  /-- What was sent in between is no older than the copy was before. -/
  sent_eq : ∃ added, after.sent = before.sent ++ added ∧
    ∀ snapshot ∈ added, before.stamp id ≤ snapshot.stamp

variable {limits : Limits} {id : MembraneId} {before after last replica : Replica σ}

theorem Advances.refl (id : MembraneId) (replica : Replica σ) : replica.Advances id replica :=
  ⟨le_refl _, [], (List.append_nil _).symm, by simp⟩

theorem Advances.trans (h : before.Advances id after) (h' : after.Advances id last) :
    before.Advances id last := by
  obtain ⟨hstamp, added, hadded, hle⟩ := h
  obtain ⟨hstamp', added', hadded', hle'⟩ := h'
  refine ⟨hstamp.trans hstamp', added ++ added', ?_, ?_⟩
  · rw [hadded', hadded, List.append_assoc]
  · intro snapshot hmem
    rcases List.mem_append.mp hmem with hmem | hmem
    · exact hle snapshot hmem
    · exact hstamp.trans (hle' snapshot hmem)

/-- What stands behind all that was sent before is no older than the copy was then. -/
theorem Advances.le_stamp (h : before.Advances id after) {index : ℕ} {snapshot : Snapshot}
    (hindex : before.sent.length ≤ index) (hsent : after.sent[index]? = some snapshot) :
    before.stamp id ≤ snapshot.stamp := by
  obtain ⟨-, added, hadded, hle⟩ := h
  rw [hadded, List.getElem?_append_right hindex] at hsent
  exact hle snapshot (List.mem_of_getElem? hsent)

/-- A replica stays sane and advances when its stamp does not go back and it sends at most its copy. -/
theorem Sane.advances (h : before.Sane limits id) (after : Replica σ) {current : Membrane}
    (hsound : after.store.Sound) (hcurrent : after.store.membranes.find? id = some current)
    (hconfig : after.store.config = before.store.config)
    (hpolicy : after.engine.policy = before.engine.policy)
    (hstamp : before.stamp id ≤ after.stamp id)
    (hsent : after.sent = before.sent ∨ after.sent = before.sent ++ [.ofMembrane current]) :
    after.Sane limits id ∧ before.Advances id after := by
  have hlimits : after.store.config.limits = limits := by rw [hconfig, h.limits_eq]
  have hcopy : after.stamp id = (Snapshot.ofMembrane current).stamp := stamp_of_find? hcurrent
  -- Whatever is in flight was so before, or is the copy that `after` holds.
  have hmem : ∀ snapshot ∈ after.sent,
      snapshot ∈ before.sent ∨ snapshot = Snapshot.ofMembrane current := by
    intro snapshot hsnapshot
    rcases hsent with hsent | hsent
    · exact Or.inl (hsent ▸ hsnapshot)
    · rw [hsent] at hsnapshot
      exact (List.mem_append.mp hsnapshot).imp_right List.mem_singleton.mp
  refine ⟨⟨hsound, ⟨current, hcurrent⟩, hlimits, by rw [hpolicy, h.strategy_eq], ?_, ?_⟩, hstamp, ?_⟩
  · intro snapshot hsnapshot
    rcases hmem snapshot hsnapshot with hold | rfl
    · exact h.travels snapshot hold
    · exact hlimits ▸ (hsound.membrane hcurrent).travels
  · intro snapshot hsnapshot
    rcases hmem snapshot hsnapshot with hold | rfl
    · exact (h.sent_le snapshot hold).trans hstamp
    · exact hcopy.ge
  · rcases hsent with hsent | hsent
    · exact ⟨[], by rw [hsent, List.append_nil], by simp⟩
    · refine ⟨_, hsent, ?_⟩
      intro snapshot hsnapshot
      rw [List.mem_singleton.mp hsnapshot, ← hcopy]
      exact hstamp

/-! ### Mutating, publishing, receiving -/

/-- The replica after a request to mutate the membrane. -/
def mutating (replica : Replica σ) (id : MembraneId) (mutation : Mutation) : Replica σ :=
  { replica with store := ((mutation.operation id).run replica.store).store }

/-- A mutation raises the version, which is not the last one yet. -/
theorem stamp_lt_of_mutates {membrane changed : Membrane}
    (hmutates : membrane.Mutates limits changed) (hbound : membrane.version.toNat < UInt64.size - 1) :
    (Snapshot.ofMembrane membrane).stamp < (Snapshot.ofMembrane changed).stamp := by
  apply Snapshot.stamp_lt_iff.mpr
  refine Or.inl ?_
  show membrane.version < changed.version
  rw [hmutates.version_eq, UInt64.lt_iff_toNat_lt, UInt64.toNat_add]
  show membrane.version.toNat < (membrane.version.toNat + 1) % UInt64.size
  rw [Nat.mod_eq_of_lt (by omega)]
  exact Nat.lt_succ_self _

theorem Sane.mutated (h : replica.Sane limits id) (hbound : (ofLex (replica.stamp id)).1 < UInt64.size - 1)
    {store : Store} (hmutated : replica.store.Mutated id store) :
    ({ replica with store } : Replica σ).Sane limits id ∧
      replica.Advances id { replica with store } := by
  cases hmutated with
  | idle => exact ⟨h, .refl id replica⟩
  | @change membrane changed hfind hmutates =>
    have hcurrent : (replica.store.put id changed).membranes.find? id = some changed := by
      rw [Store.find?_put, if_pos rfl]
    have hstamp : replica.stamp id = (Snapshot.ofMembrane membrane).stamp := stamp_of_find? hfind
    rw [hstamp] at hbound
    refine h.advances _ (h.sound.put hfind ((h.sound.membrane hfind).mutates hmutates)) hcurrent rfl
      rfl ?_ (Or.inl rfl)
    rw [hstamp, stamp_of_find? hcurrent]
    exact (stamp_lt_of_mutates hmutates hbound).le

/-- **A successful mutation advances a replica.** -/
theorem Sane.mutate (h : replica.Sane limits id)
    (hbound : (ofLex (replica.stamp id)).1 < UInt64.size - 1) {mutation : Mutation} {reply : Reply}
    (hok : ((mutation.operation id).run replica.store).answer = .ok reply) :
    (replica.mutating id mutation).Sane limits id ∧
      replica.Advances id (replica.mutating id mutation) :=
  h.mutated hbound ((mutation.run_atomically id replica.store).of_ok hok)

theorem Sane.admits_overwrittenBy (h : replica.Sane limits id) {mine : Membrane}
    (hmine : replica.store.membranes.find? id = some mine) {snapshot : Snapshot}
    (hsnapshot : snapshot.Travels limits id) :
    replica.store.config.limits.Admits ((Snapshot.ofMembrane mine).overwrittenBy snapshot).shape := by
  rcases Snapshot.overwrittenBy_cases (.ofMembrane mine) snapshot with hresult | hresult
  · rw [hresult, h.limits_eq]
    exact hsnapshot.admits
  · rw [hresult]
    exact (h.sound.membrane hmine).admits

/-- A snapshot that travels is never refused by a replica that follows the last writer. -/
theorem Sane.absorb_eq (h : replica.Sane limits id) {snapshot : Snapshot}
    (hsnapshot : snapshot.Travels limits id) : ∃ mine current receipt decision after,
      replica.store.membranes.find? id = some mine ∧
      replica.store.Steps after ∧ after.config = replica.store.config ∧
      after.membranes.find? id = some current ∧
      Snapshot.ofMembrane current = (Snapshot.ofMembrane mine).overwrittenBy snapshot ∧
      replica.engine.absorb replica.store id snapshot .lastWriterWins =
        ⟨.ok (receipt, .ofMembrane current), replica.engine.afterDecision id decision none, after⟩ := by
  obtain ⟨answer, engine, after, habsorb, habsorbs⟩ :=
    replica.engine.exists_absorbs replica.store id snapshot .lastWriterWins
  cases habsorbs with
  | corrupt hremote => exact nomatch hremote.symm.trans hsnapshot.verify
  -- The limits are the same everywhere, so the store takes whichever copy stays.
  | refused hremote hrefused =>
    obtain ⟨mine, hmine⟩ := h.live
    have hcarry := Store.carryOut_of_admits hmine (Snapshot.merge_lastWriter_split _ snapshot)
      (h.admits_overwrittenBy hmine hsnapshot)
      ((Snapshot.merge_settles _ _ _).verify (h.sound.membrane hmine).verify hremote)
    exact nomatch (hrefused mine hmine).symm.trans hcarry
  | @settled mine current settlement sibling _ hremote hmine hsettlement hcarried hcurrent =>
    subst hsettlement
    have hsettles := Snapshot.merge_settles (.ofMembrane mine) snapshot (some .lastWriterWins)
    have hrefines := hcarried.refines h.sound hmine hsettles hremote
    -- The last writer never splits, so the merge touches no other membrane.
    obtain ⟨rfl, hconfig, -⟩ := hrefines.alone (Snapshot.merge_lastWriter_split _ _)
    obtain ⟨other, hother, hbecomes⟩ := hrefines.becomes
    obtain rfl := Option.some.inj (hcurrent.symm.trans hother)
    exact ⟨mine, current, _, _, after, hmine, hcarried.steps hmine hsettles hremote, hconfig,
      hcurrent, hbecomes.snapshot_eq, habsorb⟩

variable [Outbound σ]

/-- The replica that puts its copy in flight. -/
def publishing (replica : Replica σ) (id : MembraneId) : Replica σ :=
  { replica with engine := (replica.engine.publish replica.store id).2 }

theorem publishing_eq {membrane : Membrane}
    (hfind : replica.store.membranes.find? id = some membrane) :
    ∃ outbound tally, Engine.Offers replica.engine.outbound (.ofMembrane membrane) outbound ∧
      replica.publishing id =
        { replica with engine := { replica.engine with outbound, tally } } := by
  unfold publishing Engine.publish
  rw [Store.snapshot_of_find? hfind]
  dsimp only
  cases hoffer : replica.engine.offer (.ofMembrane membrane) with
  | mk answer offered =>
    obtain ⟨-, rfl⟩ := Prod.mk.inj hoffer
    cases answer with
    | ok taken => exact ⟨_, _, Or.inr rfl, rfl⟩
    | error fault => exact ⟨_, _, Or.inr rfl, rfl⟩

/-- **Publishing leaves the copy as it is**, and sends nothing else. -/
theorem Sane.publish (h : replica.Sane limits id) :
    (replica.publishing id).Sane limits id ∧ replica.Advances id (replica.publishing id) ∧
      (replica.publishing id).stamp id = replica.stamp id := by
  obtain ⟨membrane, hfind⟩ := h.live
  obtain ⟨outbound, tally, hoffers, hpublish⟩ := publishing_eq hfind
  rw [hpublish]
  obtain ⟨hsane, hadvances⟩ :=
    h.advances { replica with engine := { replica.engine with outbound, tally } } h.sound hfind rfl rfl
      (le_refl _) hoffers.sent_eq
  exact ⟨hsane, hadvances, rfl⟩

/-- The replica that has received a snapshot. -/
def receiving (replica : Replica σ) (id : MembraneId) (snapshot : Snapshot) : Replica σ where
  store := (replica.engine.receive replica.store id snapshot).store
  engine := (replica.engine.receive replica.store id snapshot).engine

/-- **Receiving a snapshot is never refused, and keeps the greater stamp.** -/
theorem Sane.receive (h : replica.Sane limits id) {snapshot : Snapshot}
    (hsnapshot : snapshot.Travels limits id) :
    (∃ receipt, (replica.engine.receive replica.store id snapshot).answer = .ok receipt) ∧
      (replica.receiving id snapshot).Sane limits id ∧
      replica.Advances id (replica.receiving id snapshot) ∧
      (replica.receiving id snapshot).stamp id = max (replica.stamp id) snapshot.stamp := by
  obtain ⟨mine, current, receipt, decision, after, hmine, hsteps, hconfig, hcurrent, hresult, habsorb⟩ :=
    h.absorb_eq hsnapshot
  obtain ⟨sentOut, outbound, tally, hoffers, hreceive⟩ := Engine.receiveWith_of_ok habsorb
  -- `receive` takes the strategy from the policy.
  rw [← h.strategy_eq] at hreceive
  change replica.engine.receive replica.store id snapshot = _ at hreceive
  have hreceived : replica.receiving id snapshot =
      ⟨after, { replica.engine.afterDecision id decision none with outbound, tally }⟩ := by
    unfold receiving
    rw [hreceive]
  have hid : (Snapshot.ofMembrane mine).id = snapshot.id :=
    (h.sound.membrane hmine).id_eq.trans hsnapshot.id_eq.symm
  have hstamp : (replica.receiving id snapshot).stamp id = max (replica.stamp id) snapshot.stamp := by
    rw [hreceived, stamp_of_find? hcurrent, hresult, Snapshot.stamp_overwrittenBy hid,
      stamp_of_find? hmine]
  have hle : replica.stamp id ≤ (replica.receiving id snapshot).stamp id :=
    hstamp ▸ le_max_left _ _
  rw [hreceived] at hle hstamp ⊢
  obtain ⟨hsane, hadvances⟩ := h.advances
    ⟨after, { replica.engine.afterDecision id decision none with outbound, tally }⟩
    (h.sound.steps hsteps) hcurrent hconfig rfl hle hoffers.sent_eq
  exact ⟨⟨_, by rw [hreceive]⟩, hsane, hadvances, hstamp⟩

end Replica

end Membranes
