import Mathlib.Data.List.Range
import Membranes.Proofs.Exchange.Turnover

/-!
# The numbering of membranes

* `History` is any run of calls on a store, with the membranes that were created and released on the way.
* `Numbered.turnover` is what a call keeps, and `History.numbered` what a run of calls comes to: the
  created membranes are numbered from one, the counter is one ahead of them, and live are those that were
  not released.
* `Store.numbering`: so no identifier is given out twice, none is left out, and one that was released
  leads nowhere. There are histories that create as many membranes as the counter can number.
-/

namespace Membranes

/-- A store that calls have led to, with the membranes created and released on the way, in order. Each
call may be made on an engine of its own. -/
inductive History (start : Store) : List MembraneId → List MembraneId → Store → Prop
  | opening : History start [] [] start
  | call {σ : Type} [Outbound σ] {created released : List MembraneId} {store : Store}
      (h : History start created released store) (engine : Engine σ) (call : Call) :
      History start (created ++ (engine.call store call).1.createdIds)
        (released ++ (engine.call store call).1.releasedIds) (engine.call store call).2.2

namespace Store

variable {store after : Store} {created released created' released' : List MembraneId}
  {id : MembraneId}

/-! ### One call -/

/-- The created membranes are numbered from one, the counter is one ahead of them, and live are those
that were not released. -/
structure Numbered (store : Store) (created released : List MembraneId) : Prop where
  numbers_eq : created.map (·.value.toNat) = List.range' 1 created.length
  nextId_eq : store.nextId.toNat = created.length + 1
  contains_iff : ∀ id, store.contains id = true ↔ id ∈ created ∧ id ∉ released
  created_of_released : ∀ id ∈ released, id ∈ created

theorem numbered_empty (config : StoreConfig) (entropy : UInt64) :
    (Store.empty config entropy).Numbered [] [] where
  numbers_eq := rfl
  nextId_eq := rfl
  contains_iff id := by
    rw [Store.contains_iff]
    simp [Store.empty]
  created_of_released id hmem := nomatch hmem

/-- The next identifier is a new one. -/
theorem Numbered.nextId_not_mem (h : store.Numbered created released) :
    (⟨store.nextId⟩ : MembraneId) ∉ created := by
  intro hmem
  have hnumber : store.nextId.toNat ∈ created.map (·.value.toNat) := List.mem_map_of_mem hmem
  rw [h.numbers_eq, List.mem_range'_1, h.nextId_eq] at hnumber
  omega

/-- **What a call keeps of the numbering.** -/
theorem Numbered.turnover (h : store.Numbered created released)
    (hturnover : store.Turnover after created' released') :
    after.Numbered (created ++ created') (released ++ released') := by
  obtain ⟨hcounter, hcontains, hlive⟩ := hturnover
  have hgone : ∀ id ∈ released ++ released', id ∈ created := by
    intro id hmem
    obtain hold | hnew := List.mem_append.mp hmem
    · exact h.created_of_released id hold
    · exact ((h.contains_iff id).mp (hlive id hnew)).1
  obtain ⟨rfl, hnext⟩ | ⟨rfl, hroom, hnext⟩ := hcounter
  · rw [List.append_nil]
    refine ⟨h.numbers_eq, hnext ▸ h.nextId_eq, fun id => ?_, hgone⟩
    rw [hcontains, h.contains_iff, List.mem_append]
    simp [and_assoc]
  · refine ⟨?_, ?_, fun id => ?_, fun id hmem => List.mem_append_left _ (hgone id hmem)⟩
    · rw [List.map_append, h.numbers_eq, List.length_append, List.length_singleton,
        List.range'_1_concat, List.map_singleton, h.nextId_eq, Nat.add_comm 1]
    · rw [hnext, UInt32.toNat_add, List.length_append, List.length_singleton, ← h.nextId_eq]
      exact Nat.mod_eq_of_lt hroom
    · rw [hcontains, h.contains_iff, List.mem_append, List.mem_append, List.mem_singleton]
      -- What is new was never released before.
      have hnew : id = ⟨store.nextId⟩ → id ∉ released := by
        rintro rfl hmem
        exact h.nextId_not_mem (h.created_of_released _ hmem)
      tauto

end Store

/-! ### Runs of calls -/

namespace History

variable {config : StoreConfig} {entropy : UInt64} {created released : List MembraneId}
  {start store : Store} {shape : Shape}

/-- A history goes on with an operation that is carried out. -/
theorem operation (h : History start created released store) {operation : Operation} {reply : Reply}
    {after : Store} (hrun : operation.run store = ⟨.ok reply, after⟩) :
    History start (created ++ reply.createdIds) (released ++ reply.releasedIds) after := by
  have hcall : Engine.splitting.call store (.operate operation) =
      (.operated (.ok reply), Engine.splitting, after) := by
    show (Answer.operated (operation.run store).answer, Engine.splitting, (operation.run store).store) = _
    rw [hrun]
  have hnext := h.call Engine.splitting (.operate operation)
  rwa [hcall] at hnext

/-- A history goes on with a run of calls on one engine. -/
theorem serve {σ : Type} [Outbound σ] (h : History start created released store)
    (engine : Engine (Transcript σ)) (calls : List Call) :
    History start
      (created ++ (engine.serve store calls).entries.flatMap (·.answer.createdIds))
      (released ++ (engine.serve store calls).entries.flatMap (·.answer.releasedIds))
      (engine.serve store calls).store := by
  induction calls generalizing engine created released store with
  | nil =>
    have hend := h
    rw [← List.append_nil created, ← List.append_nil released] at hend
    exact hend
  | cons call calls ih =>
    have hrest := ih (h.call engine call) (engine.call store call).2.1
    rwa [List.append_assoc, List.append_assoc] at hrest

theorem steps (h : History start created released store) : start.Steps store := by
  induction h with
  | opening => exact .refl
  | call _ engine call ih => exact ih.trans (engine.steps_call _ call)

theorem forest (h : History (.empty config entropy) created released store) : store.Forest :=
  (Store.forest_empty config entropy).steps h.steps

theorem config_eq (h : History (.empty config entropy) created released store) :
    store.config = config :=
  h.steps.config_eq

theorem numbered (h : History (.empty config entropy) created released store) :
    store.Numbered created released := by
  induction h with
  | opening => exact Store.numbered_empty config entropy
  | call h engine call ih => exact ih.turnover (engine.call_turnover h.forest call)

end History

namespace Store

variable {store : Store} {created released : List MembraneId} {shape : Shape}

/-! ### The end of the numbers -/

theorem Numbered.checkRoom_iff (h : store.Numbered created released) :
    store.checkRoom shape = .ok () ↔ store.config.limits.Admits shape ∧
      store.size < store.config.limits.maxMembranes.toNat ∧ created.length < UInt32.size - 2 := by
  rw [checkRoom_eq_ok_iff, h.nextId_eq]
  refine and_congr_right fun _ => and_congr_right fun _ => ?_
  show _ + 1 + 1 < 4294967296 ↔ _ < 4294967296 - 2
  omega

theorem Numbered.nextId (h : store.Numbered created released) :
    (⟨store.nextId⟩ : MembraneId) = ⟨.ofNat (created.length + 1)⟩ := by
  rw [← h.nextId_eq, UInt32.ofNat_toNat]

theorem Numbered.length_le (h : store.Numbered created released) :
    created.length ≤ UInt32.size - 2 := by
  have hlt := store.nextId.toNat_lt
  rw [h.nextId_eq] at hlt
  show _ ≤ 4294967296 - 2
  omega

theorem Numbered.number (h : store.Numbered created released) {k : ℕ} {id : MembraneId}
    (hget : created[k]? = some id) : id.value.toNat = k + 1 := by
  obtain ⟨hlt, -⟩ := List.getElem?_eq_some_iff.mp hget
  have hnumber : (created.map (·.value.toNat))[k]? = some id.value.toNat := by
    rw [List.getElem?_map, hget]
    rfl
  rw [h.numbers_eq, List.getElem?_range' hlt, Nat.one_mul, Nat.add_comm] at hnumber
  exact (Option.some.inj hnumber).symm

/-- Nothing can be created in the store, neither on request nor for a copy that is to be kept. -/
structure CreatesNothing (store : Store) : Prop where
  create : ∀ shape, ∃ refusal, (store.create shape).answer = .error refusal
  createUnder : ∀ owner shape, ∃ refusal, (store.createUnder owner shape).answer = .error refusal
  split : ∀ {σ : Type} [Outbound σ] (engine : Engine σ) id mine remote strategy,
    store.membranes.find? id = some mine → remote.verify = .ok () →
      ((Snapshot.ofMembrane mine).merge remote (some strategy)).split ≠ none →
        ∃ refusal, (engine.receiveWith store id remote strategy).answer = .error (.refused refusal)

theorem createsNothing_of_checkRoom (h : ∀ shape, store.checkRoom shape ≠ .ok ()) :
    store.CreatesNothing where
  create shape := by
    cases hroom : store.checkRoom shape with
    | ok => exact absurd hroom (h shape)
    | error refusal => exact ⟨refusal, create_eq_error_iff.mpr hroom⟩
  createUnder owner shape := by
    cases hroom : store.checkRoom shape with
    | ok => exact absurd hroom (h shape)
    | error refusal =>
      cases howner : store.checkOwner owner with
      | ok => exact ⟨refusal, createUnder_eq_error_iff.mpr (Or.inr ⟨howner, hroom⟩)⟩
      | error cause => exact ⟨cause, createUnder_eq_error_iff.mpr (Or.inl howner)⟩
  split engine id mine remote strategy hmine hremote hsplit := by
    cases hreceive : engine.receiveWith store id remote strategy with
    | mk answer engine' after =>
      cases answer with
      | ok receipt =>
        obtain ⟨_, _, _, -, hcarried, -⟩ := Engine.receiveWith_settled hreceive hmine
        cases hcarried with
        | keep _ hnone => exact absurd hnone hsplit
        | install _ hnone => exact absurd hnone hsplit
        | beside _ _ hroom => exact absurd hroom.room (h _)
      | error fault =>
        obtain ⟨refusal, rfl, -⟩ :=
          Engine.refused_of_receiveWith hremote hmine (congrArg Delivery.answer hreceive)
        exact ⟨refusal, rfl⟩

/-- What the identifiers of a store tell once some membranes were created and released in it. -/
structure Numbering (store : Store) (config : StoreConfig) (created released : List MembraneId) :
    Prop where
  /-- The numbers are consecutive and begin at one. -/
  number : ∀ k id, created[k]? = some id → id.value.toNat = k + 1
  /-- Neither zero nor the last number is given out. -/
  length_le : created.length ≤ UInt32.size - 2
  live_iff : ∀ id, store.contains id = true ↔ id ∈ created ∧ id ∉ released
  /-- A call takes the next number and creates a membrane with it, or does neither. -/
  next : ∀ {σ : Type} [Outbound σ] (engine : Engine σ) (call : Call),
    (engine.call store call).1.createdIds = [] ∧
        (engine.call store call).2.2.nextId = store.nextId ∨
      (engine.call store call).1.createdIds = [⟨.ofNat (created.length + 1)⟩] ∧
        created.length < UInt32.size - 2
  /-- A root is refused because of its shape, the number of membranes, or the end of the numbers. -/
  create_iff : ∀ shape, (store.create shape).answer = .ok ⟨.ofNat (created.length + 1)⟩ ↔
    config.limits.Admits shape ∧ store.size < config.limits.maxMembranes.toNat ∧
      created.length < UInt32.size - 2
  /-- When the numbers are used up, nothing is created any more. -/
  exhausted : created.length = UInt32.size - 2 → store.CreatesNothing
  /-- What was released is not live, and nothing that names it gets at any membrane. -/
  stale : ∀ id ∈ released, store.contains id = false ∧ store.Stale id

theorem Numbered.toNumbering {config : StoreConfig} (h : store.Numbered created released)
    (hforest : store.Forest) (hconfig : store.config = config) :
    store.Numbering config created released where
  number _ _ := h.number
  length_le := h.length_le
  live_iff := h.contains_iff
  next engine call := by
    obtain ⟨hcreated, hnext⟩ | ⟨hcreated, hcounter, -⟩ := (engine.call_turnover hforest call).counter
    · exact Or.inl ⟨hcreated, hnext⟩
    · refine Or.inr ⟨by rw [hcreated, h.nextId], ?_⟩
      rw [h.nextId_eq] at hcounter
      change _ + 1 + 1 < 4294967296 at hcounter
      show _ < 4294967296 - 2
      omega
  create_iff shape := by
    rw [create_eq_ok_iff, h.nextId, h.checkRoom_iff, hconfig]
    exact and_iff_left rfl
  exhausted hlength := by
    refine createsNothing_of_checkRoom fun shape => ?_
    rw [Ne, h.checkRoom_iff, hlength]
    exact fun hroom => Nat.lt_irrefl _ hroom.2.2
  stale id hmem := by
    have hdead : store.contains id = false := by
      rw [← Bool.not_eq_true, h.contains_iff]
      exact fun hlive => hlive.2 hmem
    exact ⟨hdead, stale_of_not_live hdead⟩

/-! ### Histories of any length -/

theorem run_destroy {id : MembraneId} {membrane : Membrane}
    (hfind : store.membranes.find? id = some membrane) :
    (Operation.destroy id).run store = ⟨.ok (.released (store.descendants id ++ [id])),
      store.withoutSubtree id membrane.parent⟩ := by
  show (store.destroy id).reply .released = _
  rw [destroy_of_find? hfind]
  rfl

/-- A membrane can be created and destroyed again as long as there are numbers. -/
theorem exists_history {config : StoreConfig} (entropy : UInt64)
    (hadmits : config.limits.Admits shape) (hmembranes : 0 < config.limits.maxMembranes.toNat)
    (n : ℕ) (hn : n ≤ UInt32.size - 2) :
    ∃ created released store, History (.empty config entropy) created released store ∧
      created.length = n ∧ ∀ id, store.contains id = false := by
  induction n with
  | zero =>
    refine ⟨[], [], _, .opening, rfl, fun id => ?_⟩
    rw [← Bool.not_eq_true, (numbered_empty config entropy).contains_iff]
    exact fun hlive => nomatch hlive.1
  | succ n ih =>
    obtain ⟨created, released, store, h, rfl, hdead⟩ := ih (Nat.le_of_succ_le hn)
    have hnone : ∀ id, id ∈ ([] : List MembraneId) ↔ store.contains id = true := by simp [hdead]
    have hsize : store.size = 0 := size_eq_length List.nodup_nil hnone
    have hroom : store.HasRoomBeside none shape := by
      refine ⟨nofun, h.numbered.checkRoom_iff.mpr ?_⟩
      rw [h.config_eq, hsize]
      exact ⟨hadmits, hmembranes, hn⟩
    have hcreated := h.operation hroom.run_creation
    obtain ⟨fresh, hfresh⟩ := contains_iff.mp (store.contains_withNew_nextId none shape)
    have hdestroyed := hcreated.operation (run_destroy hfresh)
    refine ⟨_, _, _, hdestroyed, ?_, fun id => ?_⟩
    · rw [List.length_append, List.length_append]
      rfl
    · rw [← Bool.not_eq_true, contains_withoutSubtree, contains_withNew_iff]
      rintro ⟨rfl | hlive, hstays⟩
      · exact hstays (List.mem_append_right _ (List.mem_singleton_self _))
      · exact nomatch hlive.symm.trans (hdead id)

/-- **Identifiers are given out one after another, and never again.** In a store that any calls have led
to from one without membranes, the created membranes are numbered from one without a gap, be they asked
for or made for a copy; a call that creates nothing takes no number; the numbers last for 4294967294
membranes, which can all be created, and after that nothing is created any more. What was released stays
so, and whatever names it is refused, because it is not found or because of a check that comes first. -/
theorem numbering (config : StoreConfig) (entropy : UInt64) :
    (∀ {created released store}, History (.empty config entropy) created released store →
      store.Numbering config created released) ∧
    ∀ shape, config.limits.Admits shape → 0 < config.limits.maxMembranes.toNat →
      ∀ n ≤ UInt32.size - 2, ∃ created released store,
        History (.empty config entropy) created released store ∧ created.length = n := by
  refine ⟨fun h => h.numbered.toNumbering h.forest h.config_eq, fun shape hadmits hmembranes n hn => ?_⟩
  obtain ⟨created, released, store, h, hlength, -⟩ := exists_history entropy hadmits hmembranes n hn
  exact ⟨created, released, store, h, hlength⟩

/-- Room for two membranes. -/
def narrow : StoreConfig := ⟨{ Limits.standard with maxMembranes := 2 }, .zeros⟩

/-- A membrane, a copy of it that is kept, a third one for which there is no room, and one more when the
copy is gone. -/
def succession : List Call :=
  [.operate (.create Snapshot.pairShape), .receiveWith ⟨1⟩ (.ofPair 7 1 0x3F800000) .split,
    .operate (.create Snapshot.pairShape), .operate (.destroy ⟨2⟩),
    .operate (.create Snapshot.pairShape)]

/-- The copy takes the second number, the membrane without room none, and the last one the third. The
history could go on to the last number. -/
theorem numbering_succession :
    let service := (Engine.ofPolicy ⟨.split, true⟩ ⟨Fickle.mk false, []⟩).serve
      (empty narrow 0) succession
    History (empty narrow 0) [⟨1⟩, ⟨2⟩, ⟨3⟩] [⟨2⟩] service.store ∧
      service.entries.map (·.answer.createdIds) = [[⟨1⟩], [⟨2⟩], [], [], [⟨3⟩]] ∧
      service.store.Numbering narrow [⟨1⟩, ⟨2⟩, ⟨3⟩] [⟨2⟩] ∧
      service.store.contains ⟨2⟩ = false ∧
      ∃ created released store, History (empty narrow 0) created released store ∧
        created.length = 4294967294 := by
  intro service
  have hopening : History (empty narrow 0) [] [] (empty narrow 0) := .opening
  have hhistory := hopening.serve (Engine.ofPolicy ⟨.split, true⟩ ⟨Fickle.mk false, []⟩) succession
  have hcreated : service.entries.map (·.answer.createdIds) = [[⟨1⟩], [⟨2⟩], [], [], [⟨3⟩]] := by
    decide +kernel
  have hreleased : service.entries.flatMap (·.answer.releasedIds) = [⟨2⟩] := by decide +kernel
  rw [hreleased, List.flatMap_def, hcreated] at hhistory
  obtain ⟨hnumbering, hlong⟩ := numbering narrow 0
  have hnumbers := hnumbering hhistory
  have hadmits : narrow.limits.Admits Snapshot.pairShape :=
    checkShape_eq_ok_iff.mp (show (Store.empty narrow 0).checkShape _ = .ok () by decide +kernel)
  exact ⟨hhistory, hcreated, hnumbers, (hnumbers.stale ⟨2⟩ (List.mem_singleton_self _)).1,
    hlong Snapshot.pairShape hadmits (by decide) 4294967294 (by decide)⟩

end Store

end Membranes
