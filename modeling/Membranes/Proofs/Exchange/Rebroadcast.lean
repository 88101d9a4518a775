import Mathlib.Data.Fintype.Prod
import Mathlib.Data.Multiset.Bind
import Mathlib.Logic.Hydra
import Membranes.Proofs.Exchange.Network
import Membranes.Proofs.Snapshot.Exchange

/-!
# Rebroadcasting ends

A replica that prevails over a snapshot sends its own copy to all the others, each of which may prevail
over that one. Still this comes to an end, whatever the replicas hold and whatever is in flight, as long
as nobody averages.

* `Snapshot.rank` orders all snapshots, by version, identifier and checksum. Who prevails without averaging
  keeps its copy, and that is of greater rank than the other one (`merge_of_prevails`,
  `rank_lt_of_yields`).
* `Engine.receiveWith_sent_rank`: what receiving a snapshot sends is of greater rank than the snapshot.
* `Traffic.Delivers`: a delivery takes one copy out of what is in flight, and puts one copy of what is sent
  in flight to every other replica.
* `Traffic.rebroadcasts_end`: the ranks in flight are the heads of a hydra, of which every delivery cuts one
  off, and there are only finitely many ranks for those that grow back. So deliveries end.
-/

namespace Membranes

open Relation

variable {n : ℕ} {σ : Type}

/-! ### Ranks -/

/-- Versions, then identifiers, then checksums. -/
abbrev Rank := Fin UInt64.size ×ₗ Fin UInt32.size ×ₗ Fin UInt32.size

namespace Snapshot

/-- What snapshots of any membranes are ordered by. -/
def rank (snapshot : Snapshot) : Rank :=
  toLex (snapshot.version.toFin, toLex (snapshot.id.value.toFin, snapshot.checksum.toFin))

variable {mine other : Snapshot} {strategy : ConflictStrategy}

theorem rank_lt_iff : mine.rank < other.rank ↔ mine.version < other.version ∨
    mine.version = other.version ∧
      (mine.id < other.id ∨ mine.id = other.id ∧ mine.checksum < other.checksum) := by
  unfold rank
  rw [Prod.Lex.toLex_lt_toLex, Prod.Lex.toLex_lt_toLex, UInt64.toFin_inj, UInt32.toFin_inj,
    MembraneId.eq_iff_toNat_eq, UInt32.toNat_inj]
  rfl

/-- A copy yields only to one of greater rank. -/
theorem rank_lt_of_yields (h : mine.Yields other) : mine.rank < other.rank := by
  apply rank_lt_iff.mpr
  rcases h with hversion | ⟨hversion, -, hloses⟩
  · exact Or.inl hversion
  · exact Or.inr ⟨hversion, losesTie_iff.mp hloses⟩

/-- Who prevails without averaging keeps its copy, to which the other one yields. -/
theorem merge_of_prevails (hstrategy : strategy ≠ .blend)
    (h : (mine.merge other (some strategy)).prevails = true) :
    other.Yields mine ∧ ∃ comparison decision,
      mine.merge other (some strategy) = .keep comparison decision mine := by
  unfold merge at h ⊢
  cases hcompare : mine.compare other with
  | remoteNewer | equal =>
    rw [hcompare] at h
    exact nomatch h
  | localNewer => exact ⟨Or.inl (lt_of_compare_localNewer hcompare), _, _, rfl⟩
  | conflict =>
    rw [hcompare] at h
    obtain ⟨hversion, hchecksum⟩ := compare_eq_conflict_iff.mp hcompare
    cases strategy with
    | blend => exact absurd rfl hstrategy
    | split => exact nomatch h
    | lastWriterWins =>
      change (mine.settleTie other).prevails = true at h
      show _ ∧ ∃ comparison decision, mine.settleTie other = _
      unfold settleTie at h ⊢
      by_cases hloses : mine.losesTie other = true
      · rw [if_pos hloses] at h
        exact nomatch h
      · have hloses' := (losesTie_iff_not (Ne.symm hchecksum)).mpr hloses
        rw [if_neg hloses]
        exact ⟨Or.inr ⟨hversion.symm, Ne.symm hchecksum, hloses'⟩, _, _, rfl⟩

end Snapshot

/-! ### What is sent -/

namespace Engine

variable [Outbound σ]

theorem receiveWith_of_silent {engine engine' : Engine σ} {store after : Store} {id : MembraneId}
    {remote current : Snapshot} {strategy : ConflictStrategy} {receipt : Receipt}
    (h : engine.absorb store id remote strategy = ⟨.ok (receipt, current), engine', after⟩)
    (hsilent : receipt.sentOut = false) :
    engine.receiveWith store id remote strategy = ⟨.ok receipt, engine', after⟩ := by
  rw [receiveWith_eq_sendOut h]
  unfold sendOut
  rw [hsilent]
  rfl

/-- **What receiving a snapshot sends is of greater rank**, unless there is averaging. -/
theorem receiveWith_sent_rank (engine : Engine (Outbox σ)) (store : Store) (id : MembraneId)
    (remote : Snapshot) {strategy : ConflictStrategy} (hstrategy : strategy ≠ .blend) :
    (engine.receiveWith store id remote strategy).engine.policy = engine.policy ∧
      ∃ added, (engine.receiveWith store id remote strategy).engine.outbound.sent =
          engine.outbound.sent ++ added ∧ ∀ snapshot ∈ added, remote.rank < snapshot.rank := by
  have hnothing : ∀ engine' : Engine (Outbox σ), engine'.outbound.sent = engine.outbound.sent →
      ∃ added, engine'.outbound.sent = engine.outbound.sent ++ added ∧
        ∀ snapshot ∈ added, remote.rank < snapshot.rank :=
    fun _ hsent => ⟨[], by rw [hsent, List.append_nil], nofun⟩
  obtain ⟨answer, engine', after, habsorb, habsorbs⟩ := engine.exists_absorbs store id remote strategy
  cases habsorbs with
  | corrupt | refused =>
    rw [receiveWith_of_error habsorb]
    exact ⟨rfl, hnothing _ rfl⟩
  | @settled mine current settlement sibling _ _ hmine hsettlement hcarried hcurrent =>
    cases hprevails : settlement.prevails with
    | false =>
      have hsilent : (engine.receipt id settlement sibling (.ofMembrane current)).sentOut = false :=
        (congrArg (engine.policy.rebroadcasts && ·) hprevails).trans (Bool.and_false _)
      rw [receiveWith_of_silent habsorb hsilent]
      exact ⟨rfl, hnothing _ rfl⟩
    | true =>
      rw [hsettlement] at hprevails
      obtain ⟨hyields, comparison, decision, hkeep⟩ := Snapshot.merge_of_prevails hstrategy hprevails
      obtain rfl := hsettlement.trans hkeep
      -- The local copy stays, so it is what is sent.
      cases hcarried with
      | install hchanged => exact nomatch hchanged
      | beside _ hsplit => exact nomatch hsplit
      | keep =>
        obtain rfl := Option.some.inj (hmine.symm.trans hcurrent)
        obtain ⟨sentOut, outbound, tally, hoffers, hreceive⟩ := receiveWith_of_ok habsorb
        rw [hreceive]
        refine ⟨rfl, ?_⟩
        rcases hoffers.sent_eq with hsent | hsent
        · exact hnothing { engine with outbound } hsent
        · refine ⟨[.ofMembrane mine], hsent, fun snapshot hsnapshot => ?_⟩
          rw [List.mem_singleton.mp hsnapshot]
          exact Snapshot.rank_lt_of_yields hyields

end Engine

/-- What a replica sends when it receives a snapshot is of greater rank. -/
theorem Replica.receiving_sent_rank [Outbound σ] (replica : Replica σ) (id : MembraneId)
    (snapshot : Snapshot) (hstrategy : replica.engine.policy.strategy ≠ .blend) :
    (replica.receiving id snapshot).engine.policy = replica.engine.policy ∧
      ∃ added, (replica.receiving id snapshot).sent = replica.sent ++ added ∧
        ∀ later ∈ added, snapshot.rank < later.rank :=
  replica.engine.receiveWith_sent_rank replica.store id snapshot hstrategy

/-! ### Deliveries -/

/-- Replicas, and what is in flight: copies, each with the replica that it is bound for. -/
structure Traffic (n : ℕ) (σ : Type) where
  network : Network n σ
  inFlight : Multiset (Fin n × Snapshot)

namespace Traffic

/-- One copy of every snapshot for every replica but the sender. -/
def copies (sender : Fin n) (sent : List Snapshot) : Multiset (Fin n × Snapshot) :=
  (Finset.univ.erase sender).val ×ˢ (sent : Multiset Snapshot)

/-- No conflict is averaged. -/
def NeverAverages (traffic : Traffic n σ) : Prop :=
  ∀ i, (traffic.network.replica i).engine.policy.strategy ≠ .blend

/-- The ranks in flight. -/
def ranks (traffic : Traffic n σ) : Multiset Rank := traffic.inFlight.map (·.2.rank)

variable [Outbound σ] {ids : Fin n → MembraneId} {traffic before after : Traffic n σ}

/-- The traffic after a replica has received what was in flight to it. -/
def delivering (traffic : Traffic n σ) (ids : Fin n → MembraneId) (i : Fin n) (snapshot : Snapshot) :
    Traffic n σ :=
  let replica := traffic.network.replica i
  let received := replica.receiving (ids i) snapshot
  { network := traffic.network.put i received
    inFlight := traffic.inFlight.erase (i, snapshot) +
      copies i (received.sent.drop replica.sent.length) }

/-- Something in flight is delivered. -/
inductive Delivers (ids : Fin n → MembraneId) : Traffic n σ → Traffic n σ → Prop
  | deliver {traffic : Traffic n σ} {i : Fin n} {snapshot : Snapshot}
      (hflight : (i, snapshot) ∈ traffic.inFlight) :
      Delivers ids traffic (traffic.delivering ids i snapshot)

theorem mem_copies {sender : Fin n} {sent : List Snapshot} {bound : Fin n × Snapshot} :
    bound ∈ copies sender sent ↔ bound.1 ≠ sender ∧ bound.2 ∈ sent := by
  unfold copies
  rw [Multiset.mem_product, Finset.mem_val, Finset.mem_erase, Multiset.mem_coe]
  simp only [Finset.mem_univ, and_true]

theorem Delivers.neverAverages (h : before.Delivers ids after) (hnever : before.NeverAverages) :
    after.NeverAverages := by
  cases h with
  | @deliver i snapshot hflight =>
    obtain ⟨hpolicy, -⟩ :=
      (before.network.replica i).receiving_sent_rank (ids i) snapshot (hnever i)
    refine Network.forall_put (fun _ replica => replica.engine.policy.strategy ≠ .blend) ?_ hnever
    rw [hpolicy]
    exact hnever i

/-- **A delivery cuts off a rank, and what grows back is greater.** -/
theorem Delivers.cutExpand (h : before.Delivers ids after) (hnever : before.NeverAverages) :
    CutExpand (· > ·) after.ranks before.ranks := by
  cases h with
  | @deliver i snapshot hflight =>
    obtain ⟨-, added, hsent, hgreater⟩ :=
      (before.network.replica i).receiving_sent_rank (ids i) snapshot (hnever i)
    have hadded : (before.delivering ids i snapshot).inFlight =
        before.inFlight.erase (i, snapshot) + copies i added := by
      unfold delivering
      dsimp only
      rw [hsent, List.drop_left]
    refine ⟨(copies i added).map (·.2.rank), snapshot.rank, ?_, ?_⟩
    · intro rank hrank
      obtain ⟨bound, hbound, rfl⟩ := Multiset.mem_map.mp hrank
      exact hgreater bound.2 (mem_copies.mp hbound).2
    · calc (before.delivering ids i snapshot).ranks + {snapshot.rank}
        _ = (before.inFlight.erase (i, snapshot) + {(i, snapshot)}).map (·.2.rank) +
              (copies i added).map (·.2.rank) := by
          unfold ranks
          rw [hadded, Multiset.map_add, Multiset.map_add, Multiset.map_singleton,
            add_right_comm]
        _ = before.ranks + (copies i added).map (·.2.rank) := by
          rw [add_comm _ {(i, snapshot)}, Multiset.singleton_add, Multiset.cons_erase hflight]
          rfl

/-- There are only finitely many ranks, so no hydra of them lives forever. -/
theorem wellFounded_cutExpand_rank : WellFounded (CutExpand (α := Rank) (· > ·)) :=
  WellFounded.cutExpand wellFounded_gt

/-- Nobody starts averaging while snapshots are delivered. -/
theorem neverAverages_run {run : ℕ → Traffic n σ} (hnever : (run 0).NeverAverages)
    (hdelivers : ∀ k, (run k).Delivers ids (run (k + 1))) (k : ℕ) : (run k).NeverAverages := by
  induction k with
  | zero => exact hnever
  | succ k ih => exact (hdelivers k).neverAverages ih

/-- **Rebroadcasting ends.** Whatever the replicas hold under whatever identifiers, and whatever is in
flight to them: when nobody averages, a delivery makes less of the ranks in flight, in a well-founded
order. So no run of deliveries is infinite. -/
theorem rebroadcasts_end (ids : Fin n → MembraneId) :
    WellFounded (CutExpand (α := Rank) (· > ·)) ∧
    (∀ before after : Traffic n σ, before.NeverAverages → before.Delivers ids after →
      after.NeverAverages ∧ CutExpand (· > ·) after.ranks before.ranks) ∧
    ∀ run : ℕ → Traffic n σ, (run 0).NeverAverages → ¬ ∀ k, (run k).Delivers ids (run (k + 1)) := by
  refine ⟨wellFounded_cutExpand_rank, ?_, ?_⟩
  · intro before after hnever hdelivers
    exact ⟨hdelivers.neverAverages hnever, hdelivers.cutExpand hnever⟩
  · intro run hnever hdelivers
    have : IsWellFounded (Multiset Rank) (CutExpand (· > ·)) := ⟨wellFounded_cutExpand_rank⟩
    obtain ⟨k, hlast⟩ := WellFounded.not_rel_apply_succ (r := CutExpand (· > ·)) fun k => (run k).ranks
    exact hlast ((hdelivers k).cutExpand (neverAverages_run hnever hdelivers k))

/-- Three replicas of the membrane of `Store.ofPair`. One has filled its copy, and a copy from before is in
flight to it. -/
def trio : Traffic 3 NoPeers :=
  let replica : Replica NoPeers := ⟨.ofPair 1, .ofPolicy .standard ⟨⟨⟩, []⟩⟩
  { network := Network.put ⟨fun _ => replica⟩ 0 (replica.mutating ⟨1⟩ (.fill ⟨0x3F800000⟩))
    inFlight := {(0, .ofPair 1 1 0)} }

/-- The three replicas after the delivery. -/
def answeredTrio : Traffic 3 NoPeers := trio.delivering (fun _ => ⟨1⟩) 0 (.ofPair 1 1 0)

/-- One old copy in flight is answered by two new ones, yet these are less. -/
theorem rebroadcasts_end_trio :
    trio.NeverAverages ∧ trio.Delivers (fun _ => ⟨1⟩) answeredTrio ∧
      answeredTrio.inFlight =
        {(1, .ofPair 1 2 0x3F800000), (2, .ofPair 1 2 0x3F800000)} ∧
      CutExpand (· > ·) answeredTrio.ranks trio.ranks ∧
      ∀ run : ℕ → Traffic 3 NoPeers, run 0 = trio →
        ¬ ∀ k, (run k).Delivers (fun _ => ⟨1⟩) (run (k + 1)) := by
  have hnever : trio.NeverAverages := by
    show ∀ i, (trio.network.replica i).engine.policy.strategy ≠ .blend
    decide +kernel
  have hdelivers : trio.Delivers (fun _ => ⟨1⟩) answeredTrio :=
    .deliver (Multiset.mem_singleton_self _)
  obtain ⟨-, hstep, hends⟩ := rebroadcasts_end (n := 3) (σ := NoPeers) fun _ => ⟨1⟩
  refine ⟨hnever, hdelivers, by decide +kernel, (hstep _ _ hnever hdelivers).2, ?_⟩
  rintro run hstart
  exact hends run (hstart ▸ hnever)

end Traffic

end Membranes
