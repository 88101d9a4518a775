import Membranes.Proofs.Exchange.Replica
import Membranes.Proofs.Message.Bytes
import Membranes.Proofs.Script.Session

/-!
# Content stays whole

A replica is exposed to the world when anything may come in: operations of any kind, and bytes of any
kind for any membrane.

* `Replica.Exposed`: the replicas that this can lead to. Their stores are sound, and all that they have
  sent arrives whole (`Exposed.whole`).
* `Exposed.content_whole`: the content of every live membrane fits its shape and its checksum; what is
  sent is read by the receiver as it was sent, and is whole; and no script is told that a snapshot is
  damaged.
-/

namespace Membranes

variable {σ : Type}

/-! ### What is sent -/

theorem Membrane.Sound.countable {limits : Limits} {id : MembraneId} {membrane : Membrane}
    (h : membrane.Sound limits id) : (Snapshot.ofMembrane membrane).Countable := by
  show membrane.buffer.size < UInt64.size
  rw [h.size_eq]
  exact membrane.shape.volume.toNat_lt

/-- A snapshot that a receiver reads as it was sent, and finds whole. -/
structure Snapshot.Arrives (snapshot : Snapshot) : Prop where
  verify : snapshot.verify = .ok ()
  countable : snapshot.Countable

theorem Store.Sound.arrives {store : Store} (h : store.Sound) {id : MembraneId} {membrane : Membrane}
    (hfind : store.membranes.find? id = some membrane) : (Snapshot.ofMembrane membrane).Arrives :=
  ⟨(h.membrane hfind).verify, (h.membrane hfind).countable⟩

/-- What holds of a replica whatever it meets. -/
structure Replica.Whole (replica : Replica σ) : Prop where
  sound : replica.store.Sound
  arrives : ∀ snapshot ∈ replica.sent, snapshot.Arrives

/-- A replica stays whole when its store stays sound and it sends at most a copy that is in the store. -/
theorem Replica.Whole.sending {replica after : Replica σ} (h : replica.Whole) (hsound : after.store.Sound)
    (hsent : after.sent = replica.sent ∨ ∃ id current,
      after.store.membranes.find? id = some current ∧
      after.sent = replica.sent ++ [.ofMembrane current]) : after.Whole := by
  refine ⟨hsound, ?_⟩
  intro snapshot hsnapshot
  rcases hsent with hsent | ⟨id, current, hcurrent, hsent⟩
  · exact h.arrives snapshot (hsent ▸ hsnapshot)
  · rw [hsent] at hsnapshot
    rcases List.mem_append.mp hsnapshot with hold | hnew
    · exact h.arrives snapshot hold
    · rw [List.mem_singleton.mp hnew]
      exact hsound.arrives hcurrent

variable [Outbound σ]

/-- Receiving sends at most the copy that is then in the store. -/
theorem Engine.receiveWith_sent (engine : Engine (Outbox σ)) (store : Store) (id : MembraneId)
    (remote : Snapshot) (strategy : ConflictStrategy) :
    (engine.receiveWith store id remote strategy).engine.outbound.sent = engine.outbound.sent ∨
      ∃ current,
        (engine.receiveWith store id remote strategy).store.membranes.find? id = some current ∧
        (engine.receiveWith store id remote strategy).engine.outbound.sent =
          engine.outbound.sent ++ [.ofMembrane current] := by
  obtain ⟨answer, engine', after, habsorb, habsorbs⟩ := engine.exists_absorbs store id remote strategy
  cases habsorbs with
  | corrupt | refused =>
    rw [receiveWith_of_error habsorb]
    exact Or.inl rfl
  | @settled _ current _ _ _ _ _ _ _ hcurrent =>
    obtain ⟨sentOut, outbound, tally, hoffers, hreceive⟩ := receiveWith_of_ok habsorb
    rw [hreceive]
    rcases hoffers.sent_eq with hsent | hsent
    · exact Or.inl hsent
    · exact Or.inr ⟨current, hcurrent, hsent⟩

/-! ### Exposed replicas -/

namespace Replica

/-- The replica after bytes came in for a membrane: if they are a message with a snapshot, that is
received. -/
def hearing (replica : Replica σ) (id : MembraneId) (bytes : List UInt8)
    (strategy : ConflictStrategy) : Replica σ :=
  match (Message.decode bytes).toOption.bind Message.snapshot? with
  | none => replica
  | some snapshot =>
    let delivery := replica.engine.receiveWith replica.store id snapshot strategy
    ⟨delivery.store, delivery.engine⟩

/-- The replicas that can come of one without membranes which has not sent anything. -/
inductive Exposed : Replica σ → Prop
  /-- Nothing has happened yet. -/
  | opening (config : StoreConfig) (entropy : UInt64) (policy : SyncPolicy) (peers : σ) :
      Exposed ⟨.empty config entropy, .ofPolicy policy ⟨peers, []⟩⟩
  /-- An operation is carried out, or refused. -/
  | operation {replica : Replica σ} (h : Exposed replica) (operation : Operation) :
      Exposed { replica with store := (operation.run replica.store).store }
  /-- Bytes come in. -/
  | bytes {replica : Replica σ} (h : Exposed replica) (id : MembraneId) (bytes : List UInt8)
      (strategy : ConflictStrategy) : Exposed (replica.hearing id bytes strategy)
  /-- A snapshot goes out. -/
  | publication {replica : Replica σ} (h : Exposed replica) (id : MembraneId) :
      Exposed (replica.publishing id)

variable {replica : Replica σ}

theorem Whole.hearing (h : replica.Whole) (id : MembraneId) (bytes : List UInt8)
    (strategy : ConflictStrategy) : (replica.hearing id bytes strategy).Whole := by
  unfold Replica.hearing
  split
  · exact h
  · rename_i snapshot _
    refine h.sending (h.sound.steps (replica.engine.steps_receiveWith _ id snapshot strategy)) ?_
    rcases replica.engine.receiveWith_sent replica.store id snapshot strategy with
      hsent | ⟨current, hcurrent, hsent⟩
    · exact Or.inl hsent
    · exact Or.inr ⟨id, current, hcurrent, hsent⟩

theorem Whole.publishing (h : replica.Whole) (id : MembraneId) : (replica.publishing id).Whole := by
  cases hfind : replica.store.membranes.find? id with
  | none =>
    have hpublish : replica.publishing id = replica := by
      unfold Replica.publishing Engine.publish
      rw [Store.snapshot_of_not_live hfind]
    rw [hpublish]
    exact h
  | some membrane =>
    obtain ⟨outbound, tally, hoffers, hpublish⟩ := publishing_eq hfind
    rw [hpublish]
    refine h.sending h.sound ?_
    rcases hoffers.sent_eq with hsent | hsent
    · exact Or.inl hsent
    · exact Or.inr ⟨id, membrane, hfind, hsent⟩

theorem Exposed.whole (h : replica.Exposed) : replica.Whole := by
  induction h with
  | opening config entropy policy peers => exact ⟨Store.sound_empty config entropy, nofun⟩
  | operation _ operation ih =>
    exact ih.sending (ih.sound.steps (Store.steps_run operation _)) (Or.inl rfl)
  | bytes _ id bytes strategy ih => exact ih.hearing id bytes strategy
  | publication _ id ih => exact ih.publishing id

/-- **Content stays whole.** Whatever an exposed replica has met, each of its membranes has a shape with
an axis, elements that fill it, and the checksum of both; so its snapshot is whole. What the replica has
sent is read as it was sent, and is whole. And whatever a script does, bringing one membrane of its
session into another is never told that the snapshot is damaged. -/
theorem Exposed.content_whole (h : replica.Exposed) :
    (∀ id membrane, replica.store.membranes.find? id = some membrane →
      membrane.shape.isScalar = false ∧
      membrane.buffer.size = membrane.shape.volume.toNat ∧
      membrane.checksum = checksumOf membrane.shape membrane.buffer ∧
      replica.store.snapshot id = .ok (.ofMembrane membrane) ∧
      (Snapshot.ofMembrane membrane).verify = .ok ()) ∧
    (∀ snapshot ∈ replica.sent, snapshot.verify = .ok () ∧
      Message.decode (Message.ofSnapshot snapshot).encode = .ok (.ofSnapshot snapshot)) ∧
    (∀ config entropy lines, ∀ result ∈ ((Session.ofConfig config entropy).run lines).1,
      ∀ id fault, result ≠ .error (.failed (.corrupt id fault))) := by
  obtain ⟨hsound, hsent⟩ := h.whole
  refine ⟨?_, ?_, ?_⟩
  · intro id membrane hfind
    have hmembrane := hsound.membrane hfind
    exact ⟨hmembrane.admits.hasAxis, hmembrane.size_eq, hmembrane.checksum_eq,
      Store.snapshot_of_find? hfind, hmembrane.verify⟩
  · intro snapshot hsnapshot
    obtain ⟨hverify, hcountable⟩ := hsent snapshot hsnapshot
    exact ⟨hverify, Message.decode_encode rfl hcountable⟩
  · intro config entropy lines
    exact Session.run_ne_corrupt (Store.sound_empty config.store entropy) lines

/-- A replica of the membrane of `Store.ofPair` that has heard of a damaged snapshot and of a newer one,
and has published its copy. -/
def informed : Replica NoPeers :=
  ((Replica.hearing ⟨.ofPair 1, .ofPolicy .standard ⟨⟨⟩, []⟩⟩ ⟨1⟩ Message.damaged.encode
    .split).hearing ⟨1⟩ (Message.ofSnapshot (.ofPair 7 5 0x3F800000)).encode .split).publishing ⟨1⟩

/-- The newer snapshot is what is published, under the local identifier. -/
theorem Exposed.content_whole_informed :
    informed.Exposed ∧ informed.sent = [.ofPair 1 5 0x3F800000] ∧
      (Snapshot.ofPair 1 5 0x3F800000).verify = .ok () ∧
      Message.decode (Message.ofSnapshot (.ofPair 1 5 0x3F800000)).encode =
        .ok (.ofSnapshot (.ofPair 1 5 0x3F800000)) := by
  have hexposed : informed.Exposed :=
    ((((Exposed.opening _ _ _ _).operation (.create Snapshot.pairShape)).bytes _ _ _).bytes _ _
      _).publication _
  have hsent : informed.sent = [.ofPair 1 5 0x3F800000] := by decide +kernel
  obtain ⟨-, harrives, -⟩ := hexposed.content_whole
  exact ⟨hexposed, hsent, harrives (.ofPair 1 5 0x3F800000) (by rw [hsent]; exact List.mem_singleton_self _)⟩

end Replica

end Membranes
