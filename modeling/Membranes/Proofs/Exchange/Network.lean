import Mathlib.Data.Fintype.EquivFin
import Mathlib.Data.Fintype.Lattice
import Mathlib.Order.Bounds.Basic
import Membranes.Proofs.Exchange.Replica

/-!
# Networks of replicas

Any number of replicas of one membrane mutate their copies, put them in flight, and receive what is in
flight, in any order. Snapshots in flight stay there, so that they may arrive late and more than once.

* `Run.sane_advances`: every replica stays sane, and none goes back.
* `Run.stamp_le` and `Run.heard`: without mutations no stamp exceeds those at the start, and who has
  received what another replica has sent since the start is at least where that one was.
* `replicas_converge`: replicas that have all heard of each other since the last mutation hold the
  copy that was then the greatest.
-/

namespace Membranes

variable {n : ℕ} {σ : Type}

/-! ### Events -/

/-- Replicas of a membrane. -/
structure Network (n : ℕ) (σ : Type) where
  replica : Fin n → Replica σ

/-- Something that happens to one replica. -/
inductive Event (n : ℕ) where
  /-- A replica mutates its copy. -/
  | mutate (replica : Fin n) (mutation : Mutation)
  /-- A replica puts its copy in flight. -/
  | publish (replica : Fin n)
  /-- A replica receives what another one has put in flight, counted from zero. -/
  | deliver (receiver sender : Fin n) (index : ℕ)
deriving DecidableEq

/-- Whether a copy is mutated. -/
def Event.isMutation : Event n → Bool
  | mutate _ _ => true
  | publish _ | deliver _ _ _ => false

namespace Network

/-- The network with another replica under a number. -/
def put (network : Network n σ) (i : Fin n) (replica : Replica σ) : Network n σ :=
  ⟨Function.update network.replica i replica⟩

@[simp]
theorem put_self (network : Network n σ) (i : Fin n) (replica : Replica σ) :
    (network.put i replica).replica i = replica := by
  show Function.update network.replica i replica i = replica
  rw [Function.update_self]

theorem put_of_ne (network : Network n σ) {i j : Fin n} (h : j ≠ i) (replica : Replica σ) :
    (network.put i replica).replica j = network.replica j := by
  show Function.update network.replica i replica j = network.replica j
  rw [Function.update_of_ne h]

/-- No version is as great as a version can be. -/
def Bounded (id : MembraneId) (network : Network n σ) : Prop :=
  ∀ i, (ofLex ((network.replica i).stamp id)).1 < UInt64.size - 1

instance (id : MembraneId) (network : Network n σ) : Decidable (network.Bounded id) :=
  inferInstanceAs (Decidable (∀ _, _))

/-- Whether an event can happen: mutations succeed, and only what is in flight is received. -/
def Enabled (id : MembraneId) (network : Network n σ) : Event n → Bool
  | .mutate i mutation => ((mutation.operation id).run (network.replica i).store).answer.isOk
  | .publish _ => true
  | .deliver _ j index => index < (network.replica j).sent.length

/-- What an event makes of a network. -/
def next [Outbound σ] (id : MembraneId) (network : Network n σ) : Event n → Network n σ
  | .mutate i mutation => network.put i ((network.replica i).mutating id mutation)
  | .publish i => network.put i ((network.replica i).publishing id)
  | .deliver i j index =>
    match (network.replica j).sent[index]? with
    | some snapshot => network.put i ((network.replica i).receiving id snapshot)
    | none => network

/-- The events between two moments, in which no version comes to its end. -/
inductive Run [Outbound σ] (id : MembraneId) : Network n σ → List (Event n) → Network n σ → Prop
  /-- Nothing happens. -/
  | nil {network : Network n σ} (hbounded : network.Bounded id) : Run id network [] network
  /-- One more event. -/
  | snoc {start network : Network n σ} {events : List (Event n)} {event : Event n}
      (hrun : Run id start events network) (henabled : network.Enabled id event)
      (hbounded : (network.next id event).Bounded id) :
      Run id start (events ++ [event]) (network.next id event)

/-- Replicas of a membrane with the same limits, whose conflicts fall to the last writer, and which have
not put anything in flight yet. -/
structure Opening (limits : Limits) (id : MembraneId) (network : Network n σ) : Prop where
  reachable : ∀ i, (network.replica i).store.Reachable
  live : ∀ i, (network.replica i).store.contains id = true
  limits_eq : ∀ i, (network.replica i).store.config.limits = limits
  strategy_eq : ∀ i, (network.replica i).engine.policy.strategy = .lastWriterWins
  sent_eq : ∀ i, (network.replica i).sent = []

/-! ### Sane networks -/

/-- What holds of all the replicas. -/
def Sane (limits : Limits) (id : MembraneId) (network : Network n σ) : Prop :=
  ∀ i, (network.replica i).Sane limits id

variable {limits : Limits} {id : MembraneId} {network start mid last : Network n σ}
  {event : Event n} {events : List (Event n)}

theorem Opening.sane (h : start.Opening limits id) : start.Sane limits id := by
  intro i
  refine ⟨(h.reachable i).sound, Store.contains_iff.mp (h.live i), h.limits_eq i, h.strategy_eq i,
    ?_, ?_⟩ <;> simp [h.sent_eq i]

/-- Among the copies that replicas hold, equal checksums belong to equal contents. -/
def ChecksumsTell (id : MembraneId) (network : Network n σ) : Prop :=
  ∀ i j a b, (network.replica i).store.snapshot id = .ok a →
    (network.replica j).store.snapshot id = .ok b →
      a.checksum = b.checksum → a.shape = b.shape ∧ a.buffer = b.buffer

/-- A sane replica holds a copy, which has its stamp. -/
theorem Sane.snapshot_eq (h : network.Sane limits id) (i : Fin n) :
    ∃ copy, (network.replica i).store.snapshot id = .ok copy ∧ copy.id = id ∧
      (network.replica i).stamp id = copy.stamp := by
  obtain ⟨membrane, hfind⟩ := (h i).live
  exact ⟨_, Store.snapshot_of_find? hfind, ((h i).sound.membrane hfind).id_eq,
    Replica.stamp_of_find? hfind⟩

/-- Copies with one stamp are equal where checksums tell contents apart. -/
theorem Sane.snapshot_eq_snapshot (h : network.Sane limits id) (htell : network.ChecksumsTell id)
    {i j : Fin n} (hstamp : (network.replica i).stamp id = (network.replica j).stamp id) :
    (network.replica i).store.snapshot id = (network.replica j).store.snapshot id := by
  obtain ⟨a, ha, haId, haStamp⟩ := h.snapshot_eq i
  obtain ⟨b, hb, hbId, hbStamp⟩ := h.snapshot_eq j
  rw [haStamp, hbStamp] at hstamp
  obtain ⟨hversion, hchecksum⟩ := Snapshot.stamp_inj hstamp
  obtain ⟨hshape, hbuffer⟩ := htell i j a b ha hb hchecksum
  rw [ha, hb]
  cases a
  cases b
  simp_all

/-! ### What one event preserves -/

/-- What holds of the new replica, and of all the others before, holds of all afterwards. -/
theorem forall_put (p : Fin n → Replica σ → Prop) {i : Fin n} {replica : Replica σ}
    (hreplica : p i replica) (hothers : ∀ j, p j (network.replica j)) (j : Fin n) :
    p j ((network.put i replica).replica j) := by
  by_cases hj : j = i
  · rw [hj, put_self]
    exact hreplica
  · rw [put_of_ne _ hj]
    exact hothers j

/-- One replica advances, and the others stay as they are. -/
theorem sane_put (h : network.Sane limits id) {i : Fin n} {replica : Replica σ}
    (hreplica : replica.Sane limits id ∧ (network.replica i).Advances id replica) :
    (network.put i replica).Sane limits id ∧
      ∀ j, (network.replica j).Advances id ((network.put i replica).replica j) := by
  obtain ⟨hsane, hadvances⟩ := hreplica
  constructor
  · exact forall_put (fun _ replica => replica.Sane limits id) hsane h
  · exact forall_put (fun j replica => (network.replica j).Advances id replica) hadvances
      fun j => .refl id _

theorem reply_of_enabled {i : Fin n} {mutation : Mutation}
    (h : network.Enabled id (.mutate i mutation)) :
    ∃ reply, ((mutation.operation id).run (network.replica i).store).answer = .ok reply := by
  change ((mutation.operation id).run (network.replica i).store).answer.isOk = true at h
  cases hanswer : ((mutation.operation id).run (network.replica i).store).answer with
  | ok reply => exact ⟨reply, rfl⟩
  | error refusal =>
    rw [hanswer] at h
    exact nomatch h

variable [Outbound σ]

theorem next_of_deliver {i j : Fin n} {index : ℕ} (h : network.Enabled id (.deliver i j index)) :
    ∃ snapshot, (network.replica j).sent[index]? = some snapshot ∧
      network.next id (.deliver i j index) =
        network.put i ((network.replica i).receiving id snapshot) := by
  have hindex : index < (network.replica j).sent.length := of_decide_eq_true h
  have hsent := List.getElem?_eq_getElem hindex
  refine ⟨_, hsent, ?_⟩
  unfold next
  dsimp only
  rw [hsent]

theorem Sane.next (h : network.Sane limits id) (henabled : network.Enabled id event)
    (hbounded : network.Bounded id) :
    (network.next id event).Sane limits id ∧
      ∀ j, (network.replica j).Advances id ((network.next id event).replica j) := by
  cases event with
  | mutate i mutation =>
    obtain ⟨reply, hok⟩ := reply_of_enabled henabled
    exact sane_put h ((h i).mutate (hbounded i) hok)
  | publish i =>
    obtain ⟨hsane, hadvances, -⟩ := (h i).publish
    exact sane_put h ⟨hsane, hadvances⟩
  | deliver i j index =>
    obtain ⟨snapshot, hsent, hnext⟩ := next_of_deliver henabled
    obtain ⟨-, hsane, hadvances, -⟩ :=
      (h i).receive ((h j).travels snapshot (List.mem_of_getElem? hsent))
    rw [hnext]
    exact sane_put h ⟨hsane, hadvances⟩

/-- Without a mutation no stamp exceeds a bound of the stamps before. -/
theorem Sane.stamp_next_le (h : network.Sane limits id) (henabled : network.Enabled id event)
    (hquiet : event.isMutation = false) {bound : ℕ ×ₗ ℕ}
    (hbound : ∀ j, (network.replica j).stamp id ≤ bound) (i : Fin n) :
    ((network.next id event).replica i).stamp id ≤ bound := by
  cases event with
  | mutate => exact nomatch hquiet
  | publish j =>
    obtain ⟨-, -, hstamp⟩ := (h j).publish
    refine forall_put (fun _ replica => replica.stamp id ≤ bound) ?_ hbound i
    rw [hstamp]
    exact hbound j
  | deliver receiver sender index =>
    obtain ⟨snapshot, hsent, hnext⟩ := next_of_deliver henabled
    have hmem := List.mem_of_getElem? hsent
    obtain ⟨-, -, -, hstamp⟩ := (h receiver).receive ((h sender).travels snapshot hmem)
    rw [hnext]
    refine forall_put (fun _ replica => replica.stamp id ≤ bound) ?_ hbound i
    -- What is in flight is no newer than its sender, however long it has been under way.
    rw [hstamp]
    exact max_le (hbound receiver) (((h sender).sent_le snapshot hmem).trans (hbound sender))

/-- Who receives a snapshot is at least where the snapshot is. -/
theorem Sane.le_stamp_next (h : network.Sane limits id) {i j : Fin n} {index : ℕ}
    (henabled : network.Enabled id (.deliver i j index)) :
    ∃ snapshot, (network.replica j).sent[index]? = some snapshot ∧
      snapshot.stamp ≤ ((network.next id (.deliver i j index)).replica i).stamp id := by
  obtain ⟨snapshot, hsent, hnext⟩ := next_of_deliver henabled
  obtain ⟨-, -, -, hstamp⟩ := (h i).receive ((h j).travels snapshot (List.mem_of_getElem? hsent))
  refine ⟨snapshot, hsent, ?_⟩
  rw [hnext, put_self, hstamp]
  exact le_max_right _ _

/-! ### What a run preserves -/

theorem Run.bounded (hrun : Run id start events last) : last.Bounded id := by
  cases hrun with
  | nil hbounded => exact hbounded
  | snoc _ _ hbounded => exact hbounded

/-- **No replica ever goes back.** -/
theorem Run.sane_advances (hrun : Run id start events last) (h : start.Sane limits id) :
    last.Sane limits id ∧ ∀ j, (start.replica j).Advances id (last.replica j) := by
  induction hrun with
  | nil => exact ⟨h, fun j => .refl id _⟩
  | snoc hbefore henabled _ ih =>
    obtain ⟨hsane, hadvances⟩ := ih
    obtain ⟨hsane', hadvances'⟩ := hsane.next henabled hbefore.bounded
    exact ⟨hsane', fun j => (hadvances j).trans (hadvances' j)⟩

/-- Without mutations no stamp exceeds a bound of the stamps at the start. -/
theorem Run.stamp_le (hrun : Run id start events last) (h : start.Sane limits id)
    (hquiet : ∀ event ∈ events, event.isMutation = false) {bound : ℕ ×ₗ ℕ}
    (hbound : ∀ j, (start.replica j).stamp id ≤ bound) (i : Fin n) :
    (last.replica i).stamp id ≤ bound := by
  induction hrun generalizing i with
  | nil => exact hbound i
  | snoc hbefore henabled _ ih =>
    obtain ⟨hsane, -⟩ := hbefore.sane_advances h
    refine hsane.stamp_next_le henabled (hquiet _ (by simp)) (fun j => ?_) i
    exact ih (fun event hevent => hquiet event (List.mem_append_left _ hevent)) j

/-- Who has received what was sent since the start is at least where the sender was at the start. -/
theorem Run.heard (hrun : Run id start events last) (h : start.Sane limits id) {i j : Fin n}
    {index : ℕ} (hindex : (start.replica j).sent.length ≤ index)
    (hevent : .deliver i j index ∈ events) :
    (start.replica j).stamp id ≤ (last.replica i).stamp id := by
  induction hrun with
  | nil => exact absurd hevent List.not_mem_nil
  | snoc hbefore henabled _ ih =>
    obtain ⟨hsane, hadvances⟩ := hbefore.sane_advances h
    rcases List.mem_append.mp hevent with hold | hnew
    -- An earlier delivery: nobody goes back after it.
    · obtain ⟨-, hadvances'⟩ := hsane.next henabled hbefore.bounded
      exact (ih hold).trans (hadvances' i).stamp_le
    -- The delivery is the last event: what the sender had added since the start is no older than it was.
    · obtain rfl := List.mem_singleton.mp hnew
      obtain ⟨snapshot, hsent, hle⟩ := hsane.le_stamp_next henabled
      exact ((hadvances j).le_stamp hindex hsent).trans hle

/-! ### Convergence -/

/-- Every replica has received something that each other one has sent since `mid`. -/
def Mixed (mid : Network n σ) (events : List (Event n)) : Prop :=
  ∀ i j, i ≠ j → ∃ index, (mid.replica j).sent.length ≤ index ∧ .deliver i j index ∈ events

/-- After a run that mixes and does not mutate, every stamp is the greatest of those at its start. -/
theorem Run.isGreatest_stamp (hrun : Run id mid events last) (h : mid.Sane limits id)
    (hquiet : ∀ event ∈ events, event.isMutation = false) (hmixed : mid.Mixed events) (i : Fin n) :
    IsGreatest (Set.range fun j => (mid.replica j).stamp id) ((last.replica i).stamp id) := by
  have hupper : ∀ j, (mid.replica j).stamp id ≤ (last.replica i).stamp id := by
    intro j
    by_cases hij : i = j
    · rw [← hij]
      exact ((hrun.sane_advances h).2 i).stamp_le
    · obtain ⟨index, hindex, hevent⟩ := hmixed i j hij
      exact hrun.heard h hindex hevent
  -- The bound is reached: the replica that was ahead at the start bounds all stamps to the end.
  have : Nonempty (Fin n) := ⟨i⟩
  obtain ⟨greatest, hgreatest⟩ := Finite.exists_max fun j => (mid.replica j).stamp id
  constructor
  · exact ⟨greatest, le_antisymm (hupper greatest) (hrun.stamp_le h hquiet hgreatest i)⟩
  · rintro _ ⟨j, rfl⟩
    exact hupper j

/-- **Replicas converge.** From any replicas of a membrane with equal limits that follow the last writer,
and however they mutated and exchanged their copies, what is in flight is never refused and no event
takes a replica back. Once each replica has received something that each other one sent after the last
mutation, all hold the copy that was the greatest by then. -/
theorem replicas_converge (hopening : start.Opening limits id) (hrun : Run id start events mid) :
    (∀ i j, ∀ snapshot ∈ (mid.replica j).sent, ∃ receipt,
      ((mid.replica i).engine.receive (mid.replica i).store id snapshot).answer = .ok receipt) ∧
    (∀ event, mid.Enabled id event → ∀ i,
      (mid.replica i).stamp id ≤ ((mid.next id event).replica i).stamp id) ∧
    ∀ later last, Run id mid later last → (∀ event ∈ later, event.isMutation = false) →
      mid.Mixed later →
        (∀ i, ∃ copy, (last.replica i).store.snapshot id = .ok copy ∧
          IsGreatest (Set.range fun j => (mid.replica j).stamp id) copy.stamp) ∧
        (last.ChecksumsTell id → ∀ i j,
          (last.replica i).store.snapshot id = (last.replica j).store.snapshot id) := by
  obtain ⟨hsane, -⟩ := hrun.sane_advances hopening.sane
  refine ⟨?_, ?_, ?_⟩
  · intro i j snapshot hsnapshot
    exact ((hsane i).receive ((hsane j).travels snapshot hsnapshot)).1
  · intro event henabled i
    exact ((hsane.next henabled hrun.bounded).2 i).stamp_le
  · intro later last hlater hquiet hmixed
    obtain ⟨hsane', -⟩ := hlater.sane_advances hsane
    have hgreatest := hlater.isGreatest_stamp hsane hquiet hmixed
    constructor
    · intro i
      obtain ⟨copy, hcopy, -, hstamp⟩ := hsane'.snapshot_eq i
      exact ⟨copy, hcopy, hstamp ▸ hgreatest i⟩
    · intro htell i j
      exact hsane'.snapshot_eq_snapshot htell ((hgreatest i).unique (hgreatest j))

/-- Two replicas of the membrane of `Store.ofPair`. -/
def pair : Network 2 NoPeers := ⟨fun _ => ⟨.ofPair 1, .ofPolicy .standard ⟨⟨⟩, []⟩⟩⟩

/-- The two replicas after each has filled its copy with a number of its own. -/
def writtenPair : Network 2 NoPeers :=
  (pair.next ⟨1⟩ (.mutate 0 (.fill ⟨0x3F800000⟩))).next ⟨1⟩ (.mutate 1 (.fill ⟨0x40000000⟩))

/-- The two replicas after each has put its copy in flight. -/
def publishedPair : Network 2 NoPeers :=
  (writtenPair.next ⟨1⟩ (.publish 0)).next ⟨1⟩ (.publish 1)

/-- The two replicas after each has received the copy of the other one. -/
def mixedPair : Network 2 NoPeers :=
  (publishedPair.next ⟨1⟩ (.deliver 1 0 0)).next ⟨1⟩ (.deliver 0 1 0)

/-- Two replicas that wrote different numbers at the same version end up with the same ones. -/
theorem replicas_converge_pair :
    pair.Opening { Limits.standard with maxMembranes := 1 } ⟨1⟩ ∧
      Snapshot.ofPair 1 2 0x3F800000 ∈ (publishedPair.replica 0).sent ∧
      (∃ receipt, ((publishedPair.replica 1).engine.receive (publishedPair.replica 1).store ⟨1⟩
        (.ofPair 1 2 0x3F800000)).answer = .ok receipt) ∧
      (writtenPair.replica 0).stamp ⟨1⟩ ≤
        ((writtenPair.next ⟨1⟩ (.mutate 0 (.addSymbol "a"))).replica 0).stamp ⟨1⟩ ∧
      (writtenPair.replica 0).stamp ⟨1⟩ ≠ (writtenPair.replica 1).stamp ⟨1⟩ ∧
      writtenPair.Mixed [.publish 0, .publish 1, .deliver 1 0 0, .deliver 0 1 0] ∧
      (∀ i, ∃ copy, (mixedPair.replica i).store.snapshot ⟨1⟩ = .ok copy ∧
        IsGreatest (Set.range fun j => (writtenPair.replica j).stamp ⟨1⟩) copy.stamp) ∧
      (mixedPair.replica 0).store.snapshot ⟨1⟩ = (mixedPair.replica 1).store.snapshot ⟨1⟩ := by
  have hopening : pair.Opening { Limits.standard with maxMembranes := 1 } ⟨1⟩ :=
    ⟨fun _ => (Store.Reachable.empty _ _).after _, by decide +kernel, by decide +kernel,
      by decide +kernel, by decide +kernel⟩
  have hpair : Run ⟨1⟩ pair [] pair := .nil (by decide +kernel)
  have hwritten : Run ⟨1⟩ pair _ writtenPair :=
    (hpair.snoc (by decide +kernel) (by decide +kernel)).snoc (by decide +kernel)
      (by decide +kernel)
  have hpublished : Run ⟨1⟩ pair _ publishedPair :=
    (hwritten.snoc (by decide +kernel) (by decide +kernel)).snoc (by decide +kernel)
      (by decide +kernel)
  have hlater : Run ⟨1⟩ writtenPair [.publish 0, .publish 1, .deliver 1 0 0, .deliver 0 1 0]
      mixedPair := by
    have hnothing : Run ⟨1⟩ writtenPair [] writtenPair := .nil (by decide +kernel)
    have hpublishing : Run ⟨1⟩ writtenPair [.publish 0, .publish 1] publishedPair :=
      (hnothing.snoc (by decide +kernel) (by decide +kernel)).snoc (by decide +kernel)
        (by decide +kernel)
    exact (hpublishing.snoc (by decide +kernel) (by decide +kernel)).snoc (by decide +kernel)
      (by decide +kernel)
  have hmixed : writtenPair.Mixed [.publish 0, .publish 1, .deliver 1 0 0, .deliver 0 1 0] := by
    have hnothing : ∀ j : Fin 2, (writtenPair.replica j).sent.length ≤ 0 := by decide +kernel
    intro i j hij
    refine ⟨0, hnothing j, ?_⟩
    revert i j
    decide
  have htell : mixedPair.ChecksumsTell ⟨1⟩ := by
    have hequal : ∀ i j : Fin 2, (mixedPair.replica i).store.snapshot ⟨1⟩ =
        (mixedPair.replica j).store.snapshot ⟨1⟩ := by decide +kernel
    intro i j a b ha hb _
    obtain rfl := Except.ok.inj ((ha.symm.trans (hequal i j)).trans hb)
    exact ⟨rfl, rfl⟩
  have hsent : Snapshot.ofPair 1 2 0x3F800000 ∈ (publishedPair.replica 0).sent := by decide +kernel
  obtain ⟨htaken, -, -⟩ := replicas_converge hopening hpublished
  obtain ⟨-, hforward, hconverge⟩ := replicas_converge hopening hwritten
  obtain ⟨hgreatest, hequal⟩ := hconverge _ _ hlater (by decide) hmixed
  exact ⟨hopening, hsent, htaken 1 0 _ hsent, hforward _ (by decide +kernel) 0, by decide +kernel,
    hmixed, hgreatest, hequal htell 0 1⟩

end Network

end Membranes
