import Mathlib.Algebra.Order.Ring.Nat
import Mathlib.Data.List.FinRange
import Membranes.Proofs.Binary.Rounding
import Membranes.Proofs.Exchange.Numbering
import Membranes.Proofs.Store.Destruction

/-!
# Seeded buffers

* `KeyStream.number` is the sequence of numbers that a stream holds, exact fractions of 24 bits
  (`KeyStream.units_number`). What is drawn are these numbers times the scale (`KeyStream.draw_eq`), and what
  is drawn at several times is what would be drawn at once (`KeyStream.flatMap_portions`).
* `Store.newborns` are the membranes that a call makes, as they are made. `Engine.call_grants` says for
  each call that it makes one and takes the numbers of its buffer off the stream, or that it makes none
  and leaves the stream alone.
* `Births` is any run of calls with the membranes that it makes, and `Births.drawn` what comes of the
  stream in it. `Store.seeded_stream` puts this together.
-/

namespace Membranes

/-! ### Numbers drawn one after another -/

namespace KeyStream

variable (stream : KeyStream) (scale : Binary32)

/-- The upper 24 bits of the word that a stream gives behind `k` others. -/
def upperBits (k : ℕ) : ℕ := (wordAt stream.key (stream.position + k)).toNat / 2 ^ 8

/-- The number that a stream gives behind `k` others, before it is scaled. -/
def number (k : ℕ) : Binary32 := .ofTwentyFourBits (stream.upperBits k)

/-- The first numbers that a stream gives, each of them times the scale. -/
def elements (count : ℕ) : List Binary32 := (List.range count).map fun k => (stream.number k).mul scale

/-- The stream behind a number of words. -/
def skip (count : ℕ) : KeyStream := { stream with position := stream.position + count }

/-- Buffers of these sizes, drawn one after another. -/
def portions (stream : KeyStream) : List ℕ → List (Array Binary32)
  | [] => []
  | size :: sizes => (stream.draw scale size).1 :: portions (stream.draw scale size).2 sizes

/-- A number of the stream is a fraction in `[0, 1)`, and is not rounded. -/
theorem units_number (k : ℕ) : stream.upperBits k < 2 ^ 24 ∧
    (stream.number k).units * 2 ^ 24 = stream.upperBits k * BinaryFormat.single.unitsInOne := by
  have hlt : stream.upperBits k < 2 ^ 24 := by
    have hword : (wordAt stream.key (stream.position + k)).toNat < 2 ^ 32 := UInt32.toNat_lt _
    unfold upperBits
    omega
  exact ⟨hlt, Binary32.units_ofTwentyFourBits hlt⟩

theorem toNat_shiftRight_eight (word : UInt32) : (word >>> 8).toNat = word.toNat / 2 ^ 8 := by
  rw [UInt32.toNat_shiftRight, Nat.shiftRight_eq_div_pow]
  rfl

/-- An element is a number of the stream times the scale. -/
theorem scaled_wordAt (k : ℕ) : scaled scale (wordAt stream.key (stream.position + k)) =
    (stream.number k).mul scale := by
  rw [scaled, toNat_shiftRight_eight, number, upperBits]

theorem draw_eq (count : ℕ) :
    stream.draw scale count = ((stream.elements scale count).toArray, stream.skip count) := by
  have hofFn : (Array.ofFn fun i : Fin count => (stream.number i).mul scale).toList =
      stream.elements scale count := by
    rw [Array.toList_ofFn, List.ofFn_eq_map, elements, ← List.map_coe_finRange_eq_range, List.map_map]
    rfl
  unfold draw
  simp only [scaled_wordAt]
  exact Prod.ext (Array.toList_inj.mp hofFn) rfl

theorem number_skip (count k : ℕ) : (stream.skip count).number k = stream.number (count + k) := by
  unfold number upperBits skip
  rw [← Nat.add_assoc]

theorem elements_add (first second : ℕ) : stream.elements scale (first + second) =
    stream.elements scale first ++ (stream.skip first).elements scale second := by
  have hshift : (stream.skip first).number = fun k => stream.number (first + k) :=
    funext fun k => stream.number_skip first k
  unfold elements
  rw [List.range_add, List.map_append, List.map_map, hshift]
  rfl

theorem skip_skip (first second : ℕ) : (stream.skip first).skip second = stream.skip (first + second) := by
  rw [skip, skip, skip, Nat.add_assoc]

theorem portions_append (stream : KeyStream) (sizes further : List ℕ) :
    stream.portions scale (sizes ++ further) =
      stream.portions scale sizes ++ (stream.skip sizes.sum).portions scale further := by
  induction sizes generalizing stream with
  | nil => rfl
  | cons size sizes ih =>
    rw [List.cons_append, portions, portions, draw_eq, ih, skip_skip, List.sum_cons]
    rfl

theorem map_size_portions (stream : KeyStream) (sizes : List ℕ) :
    (stream.portions scale sizes).map Array.size = sizes := by
  induction sizes generalizing stream with
  | nil => rfl
  | cons size sizes ih =>
    rw [portions, List.map_cons, ih]
    exact congrArg (· :: sizes) Array.size_ofFn

/-- **What is drawn at several times is what would be drawn at once.** -/
theorem flatMap_portions (stream : KeyStream) (sizes : List ℕ) :
    (stream.portions scale sizes).flatMap Array.toList = stream.elements scale sizes.sum := by
  induction sizes generalizing stream with
  | nil => rfl
  | cons size sizes ih =>
    rw [portions, draw_eq, List.flatMap_cons, ih, List.sum_cons, elements_add]

end KeyStream

/-! ### What a call makes -/

/-- How many elements each of some membranes has by its shape. -/
def volumes (membranes : List Membrane) : List ℕ :=
  membranes.map fun membrane => membrane.shape.volume.toNat

namespace Store

/-- The store in which a call has made what it makes. A request has then done all that it does; for a
snapshot, the membrane for a copy is there and nothing is installed yet. -/
def making (store : Store) (call : Call) : Store :=
  match call.delivery? with
  | some (id, remote, _) => (store.createBeside id remote.shape).store
  | none =>
    match call with
    | .operate operation => (operation.run store).store
    | _ => store

/-- The membranes that a call with this answer has made, as they were made. -/
def newborns (store : Store) (call : Call) (answer : Answer) : List Membrane :=
  answer.createdIds.filterMap (store.making call).membranes.find?

/-- What the creation of membranes does to the stream of numbers. -/
inductive Grants (store after : Store) : List MembraneId → List Membrane → Prop
  /-- Nothing is created, and the stream stays. -/
  | nothing (hdraws : after.draws = store.draws) : Grants store after [] []
  /-- A membrane is created with the next numbers of the stream. -/
  | one (shape : Shape) (parent : Option MembraneId)
      (hdraws : after.draws = (store.freshBuffer shape.volume.toNat).2) :
      Grants store after [⟨store.nextId⟩]
        [.fresh ⟨store.nextId⟩ shape (store.freshBuffer shape.volume.toNat).1
          store.config.limits.initialEnergy parent]

variable {store after : Store} {parent : Option MembraneId} {shape : Shape} {id : MembraneId}
  {mine : Membrane} {remote : Snapshot} {strategy : ConflictStrategy}

theorem withNew_draws (store : Store) (parent : Option MembraneId) (shape : Shape) :
    (store.withNew parent shape).draws = (store.freshBuffer shape.volume.toNat).2 := by
  cases parent with
  | none => rfl
  | some owner => exact attach_draws _ _ _

theorem HasRoomBeside.grants (h : store.HasRoomBeside parent shape) (hsound : store.Sound)
    (hdraws : after.draws = (store.withNew parent shape).draws) :
    store.Grants after [⟨store.nextId⟩]
      ([⟨store.nextId⟩].filterMap (store.withNew parent shape).membranes.find?) := by
  rw [List.filterMap_cons_some (h.find?_withNew hsound.find?_nextId), List.filterMap_nil]
  exact .one shape parent (hdraws.trans (store.withNew_draws parent shape))

theorem createBeside_store (hmine : store.membranes.find? id = some mine) (shape : Shape) :
    (store.createBeside id shape).store = ((Operation.creation mine.parent shape).run store).store := by
  unfold createBeside
  rw [parent_of_find? hmine]
  cases mine.parent <;> rfl

theorem Carried.grants {settlement : Settlement} {sibling : Option MembraneId} (hsound : store.Sound)
    (hmine : store.membranes.find? id = some mine)
    (hsettles : (Snapshot.ofMembrane mine).Settles remote settlement)
    (hcarried : store.Carried id mine settlement sibling after) :
    store.Grants after sibling.toList
      (sibling.toList.filterMap (store.createBeside id remote.shape).store.membranes.find?) := by
  cases hcarried with
  | keep | install => exact .nothing rfl
  | @beside copy _ hsplit hroom =>
    obtain rfl := hsettles.copy_eq hsplit
    rw [createBeside_store hmine, hroom.run_creation]
    refine hroom.grants hsound ?_
    obtain ⟨fresh, hfresh⟩ :=
      Store.contains_iff.mp (store.contains_withNew_nextId mine.parent copy.shape)
    rw [withCopy_of_find? hfresh]
    rfl

end Store

variable {store : Store}

/-- A request takes numbers off the stream for the membrane that it creates, and else none. -/
theorem Operation.run_grants (operation : Operation) (h : store.Sound) :
    (operation.run store).Atomically store fun reply after => store.Grants after reply.createdIds
      (reply.createdIds.filterMap after.membranes.find?) := by
  refine (operation.run_effect store).imp fun reply after heffect => ?_
  cases heffect with
  | creates parent shape hroom => exact hroom.grants h rfl
  | destroys id membrane hfind => exact .nothing (Store.draws_withoutSubtree _ _ _)
  | keeps hstructural hrun =>
    have hdraws := ((operation.within hstructural).writes store).draws_eq
    obtain ⟨hcreated, -⟩ := reply_of_not_structural hstructural (congrArg Outcome.answer hrun)
    rw [hrun] at hdraws
    rw [hcreated]
    exact .nothing hdraws.symm

namespace Engine

variable {σ : Type} [Outbound σ]

theorem receiveWith_grants (engine : Engine σ) (h : store.Sound) (id : MembraneId)
    (remote : Snapshot) (strategy : ConflictStrategy) :
    store.Grants (engine.receiveWith store id remote strategy).store
      (Answer.received (engine.receiveWith store id remote strategy).answer).createdIds
      ((Answer.received (engine.receiveWith store id remote strategy).answer).createdIds.filterMap
        (store.createBeside id remote.shape).store.membranes.find?) := by
  obtain ⟨answer, engine', after, habsorb, habsorbs⟩ := engine.exists_absorbs store id remote strategy
  cases habsorbs with
  | corrupt | refused =>
    rw [receiveWith_of_error habsorb]
    exact .nothing rfl
  | settled _ hmine hsettlement hcarried =>
    obtain ⟨_, _, _, _, hreceive⟩ := receiveWith_of_ok habsorb
    rw [hreceive]
    exact hcarried.grants h hmine (hsettlement ▸ Snapshot.merge_settles _ remote _)

/-- **A call takes numbers off the stream for the membrane that it makes, and else none.** -/
theorem call_grants (engine : Engine σ) (h : store.Sound) (call : Call) :
    store.Grants (engine.call store call).2.2 (engine.call store call).1.createdIds
      (store.newborns call (engine.call store call).1) := by
  unfold Store.newborns Store.making
  cases hdelivery : call.delivery? with
  | some delivery =>
    obtain ⟨id, remote, strategy⟩ := delivery
    rw [engine.call_of_delivery store hdelivery]
    exact engine.receiveWith_grants h id remote _
  | none =>
    cases call with
    | receive | receiveWith | receiveShared => exact nomatch hdelivery
    | publish | forget => exact .nothing rfl
    | operate operation =>
      show store.Grants (operation.run store).store
        (Answer.operated (operation.run store).answer).createdIds
        ((Answer.operated (operation.run store).answer).createdIds.filterMap
          (operation.run store).store.membranes.find?)
      rcases (operation.run_grants h).cases with ⟨refusal, hrun⟩ | ⟨reply, after, hrun, hgrants⟩
      · rw [hrun]
        exact .nothing rfl
      · rw [hrun]
        exact hgrants

end Engine

/-! ### Runs of calls -/

/-- A store that calls have led to, with the membranes that were made on the way, in order and as they
were made. -/
inductive Births (start : Store) : List Membrane → Store → Prop
  | opening : Births start [] start
  | call {σ : Type} [Outbound σ] {newborns : List Membrane} {store : Store}
      (h : Births start newborns store) (engine : Engine σ) (call : Call) :
      Births start (newborns ++ store.newborns call (engine.call store call).1)
        (engine.call store call).2.2

/-- The membranes that were made meanwhile. -/
def Entry.newborns (entry : Entry) : List Membrane := entry.before.newborns entry.call entry.answer

namespace Store

variable {after : Store} {ids : List MembraneId} {newborns fresh : List Membrane}
  {stream : KeyStream} {scale : Binary32}

theorem Grants.ids_eq (h : store.Grants after ids fresh) : fresh.map (·.id) = ids := by
  cases h <;> rfl

/-- The buffers of some membranes were drawn off a stream one after another, and it stands behind
them. -/
structure Drawn (store : Store) (stream : KeyStream) (scale : Binary32) (newborns : List Membrane) :
    Prop where
  buffers_eq : newborns.map (·.buffer) = stream.portions scale (volumes newborns)
  draws_eq : store.draws = stream.skip (volumes newborns).sum

theorem drawn_self (store : Store) (scale : Binary32) : store.Drawn store.draws scale [] := ⟨rfl, rfl⟩

theorem Drawn.grants {seed : Option UInt64} (h : store.Drawn stream scale newborns)
    (hgrants : store.Grants after ids fresh) (hfilling : store.config.filling = .random scale seed) :
    after.Drawn stream scale (newborns ++ fresh) := by
  cases hgrants with
  | nothing hdraws =>
    rw [List.append_nil]
    exact ⟨h.buffers_eq, hdraws.trans h.draws_eq⟩
  | one shape parent hdraws =>
    have hfresh : store.freshBuffer shape.volume.toNat = store.draws.draw scale shape.volume.toNat := by
      unfold freshBuffer
      rw [hfilling]
    have hvolumes (membrane : Membrane) (hshape : membrane.shape = shape) :
        volumes (newborns ++ [membrane]) = volumes newborns ++ [shape.volume.toNat] := by
      rw [volumes, List.map_append, List.map_singleton, hshape]
      rfl
    rw [hfresh] at hdraws ⊢
    constructor
    · rw [hvolumes _ rfl, KeyStream.portions_append, List.map_append, h.buffers_eq, ← h.draws_eq]
      rfl
    · rw [hvolumes _ rfl, List.sum_append, List.sum_singleton, ← KeyStream.skip_skip, ← h.draws_eq,
        hdraws, KeyStream.draw_eq]

end Store

namespace Births

variable {config : StoreConfig} {entropy seed : UInt64} {scale : Binary32} {start : Store}
  {newborns : List Membrane}

/-- A run with the membranes made in it is a run with their identifiers. -/
theorem history (h : Births (.empty config entropy) newborns store) :
    ∃ released, History (.empty config entropy) (newborns.map (·.id)) released store := by
  induction h with
  | opening => exact ⟨[], .opening⟩
  | call _ engine call ih =>
    obtain ⟨released, hhistory⟩ := ih
    have hgrants := engine.call_grants hhistory.forest.toSound call
    rw [List.map_append, hgrants.ids_eq]
    exact ⟨_, hhistory.call engine call⟩

/-- A run goes on with calls on one engine. -/
theorem serve {σ : Type} [Outbound σ] (h : Births start newborns store)
    (engine : Engine (Transcript σ)) (calls : List Call) :
    Births start (newborns ++ (engine.serve store calls).entries.flatMap Entry.newborns)
      (engine.serve store calls).store := by
  induction calls generalizing engine newborns store with
  | nil =>
    have hend := h
    rw [← List.append_nil newborns] at hend
    exact hend
  | cons call calls ih =>
    have hrest := ih (h.call engine call) (engine.call store call).2.1
    rwa [List.append_assoc] at hrest

/-- **What comes of the stream in a run.** -/
theorem drawn (h : Births (.empty config entropy) newborns store)
    (hfilling : config.filling = .random scale (some seed)) :
    store.Drawn (.ofSeed seed) scale newborns := by
  induction h with
  | opening =>
    refine ⟨rfl, ?_⟩
    show KeyStream.ofSeed _ = _
    rw [hfilling]
    rfl
  | call h engine call ih =>
    obtain ⟨_, hhistory⟩ := h.history
    have hkept := hhistory.config_eq ▸ hfilling
    exact ih.grants (engine.call_grants hhistory.forest.toSound call) hkept

end Births

/-! ### One stream -/

namespace Store

variable {newborns : List Membrane} {scale : Binary32} {seed : UInt64} {config : StoreConfig}

/-- How the membranes that a store has made get their numbers from a stream. -/
structure Seeded (store : Store) (scale : Binary32) (seed : UInt64) (newborns : List Membrane) :
    Prop where
  /-- They are in the order of their identifiers, and none is left out. -/
  numbers_eq : newborns.map (·.id.value.toNat) = List.range' 1 newborns.length
  /-- Each has as many elements as its shape says. -/
  sizes_eq : newborns.map (·.buffer.size) = volumes newborns
  /-- Their elements, one after another, are the first numbers of the stream, times the scale. -/
  elements_eq : newborns.flatMap (·.buffer.toList) =
    (List.range (volumes newborns).sum).map fun k => ((KeyStream.ofSeed seed).number k).mul scale
  /-- Nothing else was taken off the stream. -/
  draws_eq : store.draws = (KeyStream.ofSeed seed).skip (volumes newborns).sum
  /-- A call takes the numbers for the membranes that it makes. -/
  next : ∀ {σ : Type} [Outbound σ] (engine : Engine σ) (call : Call),
    (store.newborns call (engine.call store call).1).map (·.id) =
        (engine.call store call).1.createdIds ∧
      (engine.call store call).2.2.draws =
        store.draws.skip (volumes (store.newborns call (engine.call store call).1)).sum
  /-- A call that makes none takes no numbers. -/
  idle : ∀ {σ : Type} [Outbound σ] (engine : Engine σ) (call : Call),
    (engine.call store call).1.createdIds = [] →
      (engine.call store call).2.2.draws = store.draws

theorem Seeded.ids_eq (h : store.Seeded scale seed newborns) :
    newborns.map (·.id) = (List.range' 1 newborns.length).map fun number => ⟨.ofNat number⟩ := by
  rw [← h.numbers_eq, List.map_map]
  refine List.map_congr_left fun membrane _ => ?_
  show membrane.id = ⟨.ofNat membrane.id.value.toNat⟩
  rw [UInt32.ofNat_toNat]

theorem Seeded.of_births {entropy : UInt64} (h : Births (.empty config entropy) newborns store)
    (hfilling : config.filling = .random scale (some seed)) : store.Seeded scale seed newborns := by
  obtain ⟨_, hhistory⟩ := h.history
  obtain ⟨hbuffers, hdraws⟩ := h.drawn hfilling
  have hkept : store.config.filling = .random scale (some seed) := hhistory.config_eq ▸ hfilling
  have hnumbers := hhistory.numbered.numbers_eq
  have hcall {σ : Type} [Outbound σ] (engine : Engine σ) (call : Call) :=
    engine.call_grants hhistory.forest.toSound call
  have hdrawn {σ : Type} [Outbound σ] (engine : Engine σ) (call : Call) :=
    ((drawn_self store scale).grants (hcall engine call) hkept).draws_eq
  refine ⟨?_, ?_, ?_, hdraws, fun engine call => ⟨(hcall engine call).ids_eq, hdrawn engine call⟩,
    fun engine call hnone => ?_⟩
  · rwa [List.map_map, List.length_map] at hnumbers
  · rw [← KeyStream.map_size_portions scale (.ofSeed seed) (volumes newborns), ← hbuffers, List.map_map]
    rfl
  · show _ = (KeyStream.ofSeed seed).elements scale _
    rw [← KeyStream.flatMap_portions, ← hbuffers, List.flatMap_map]
  · have hids := (hcall engine call).ids_eq
    rw [hnone, List.map_eq_nil_iff] at hids
    have hdraws := hdrawn engine call
    rw [hids] at hdraws
    exact hdraws

/-- **The buffers of a seeded store are one continuous stream.** In a store that any calls have led to
from one without membranes, the buffers with which the membranes were made, be they asked for or made for
a copy, hold the numbers of the stream of the seed times the scale, in order and without a gap; nothing
else takes a number. So the buffers depend on the sizes alone, and on nothing that happened in between. The
numbers are fractions of 24 bits, one for each word of the stream. -/
theorem seeded_stream (hfilling : config.filling = .random scale (some seed)) :
    (∀ {entropy newborns store}, Births (.empty config entropy) newborns store →
      store.Seeded scale seed newborns) ∧
    (∀ {entropy entropy' newborns newborns' store store'},
      Births (.empty config entropy) newborns store →
      Births (.empty config entropy') newborns' store' → volumes newborns = volumes newborns' →
        newborns.map (·.id) = newborns'.map (·.id) ∧
          newborns.map (·.buffer) = newborns'.map (·.buffer)) ∧
    ∀ k, (KeyStream.ofSeed seed).upperBits k < 2 ^ 24 ∧
      ((KeyStream.ofSeed seed).number k).units * 2 ^ 24 =
        (KeyStream.ofSeed seed).upperBits k * BinaryFormat.single.unitsInOne := by
  refine ⟨fun h => .of_births h hfilling, fun {_ _ newborns newborns' _ _} h h' hvolumes => ?_,
    (KeyStream.ofSeed seed).units_number⟩
  have hlength : newborns.length = newborns'.length := by
    have hlengths := congrArg List.length hvolumes
    rwa [volumes, volumes, List.length_map, List.length_map] at hlengths
  refine ⟨?_, ?_⟩
  · rw [(Seeded.of_births h hfilling).ids_eq, (Seeded.of_births h' hfilling).ids_eq, hlength]
  · rw [(h.drawn hfilling).buffers_eq, (h'.drawn hfilling).buffers_eq, hvolumes]

/-- Room for two membranes, filled from a seed with numbers up to one tenth. -/
def scattered (seed : UInt64) : StoreConfig :=
  { narrow with filling := .random ⟨0x3DCCCCCD⟩ (some seed) }

/-- Three membranes that are asked for, the last one in the place of the first. -/
def replacement : List Call :=
  [.operate (.create Snapshot.pairShape), .operate (.createUnder ⟨1⟩ Snapshot.pairShape),
    .publish ⟨2⟩, .operate (.createUnder ⟨9⟩ Snapshot.pairShape), .operate (.destroy ⟨2⟩),
    .operate (.create Snapshot.pairShape)]

/-- The second of three membranes is made for a copy in one run, and asked for in another. Their buffers
are the same ones, the first six numbers of the stream times one tenth. Another seed gives others. -/
theorem seeded_stream_succession :
    let engine := Engine.ofPolicy ⟨.split, true⟩ ⟨Fickle.mk false, []⟩
    let service := engine.serve (empty (scattered 42) 0) succession
    let other := engine.serve (empty (scattered 42) 7) replacement
    let reseeded := engine.serve (empty (scattered 7) 0) succession
    let newborns := service.entries.flatMap Entry.newborns
    service.entries.map (·.newborns.map (·.id)) = [[⟨1⟩], [⟨2⟩], [], [], [⟨3⟩]] ∧
      other.entries.map (·.newborns.map (·.id)) = [[⟨1⟩], [⟨2⟩], [], [], [], [⟨3⟩]] ∧
      service.store.Seeded ⟨0x3DCCCCCD⟩ 42 newborns ∧
      service.store.draws.position = 6 ∧
      (List.range 6).map (KeyStream.ofSeed 42).number =
        [⟨0x3E65756C⟩, ⟨0x3F2E90BF⟩, ⟨0x3E15E644⟩, ⟨0x3F73453F⟩, ⟨0x3F45B653⟩, ⟨0x3EDAE36E⟩] ∧
      newborns.map (·.buffer) =
        [#[⟨0x3CB79123⟩, ⟨0x3D8BA6FF⟩], #[⟨0x3C6FD6D3⟩, ⟨0x3DC29DCC⟩], #[⟨0x3D9E2B76⟩, ⟨0x3D2F1C58⟩]] ∧
      newborns.map (·.buffer) = (other.entries.flatMap Entry.newborns).map (·.buffer) ∧
      (reseeded.entries.flatMap Entry.newborns).map (·.buffer) =
        [#[⟨0x3C6561AD⟩, ⟨0x3C81443D⟩], #[⟨0x3C9523B7⟩, ⟨0x3C899DEA⟩],
          #[⟨0x3CDD41DD⟩, ⟨0x3D903C5A⟩]] := by
  intro engine service other reseeded newborns
  have hfilling : (scattered 42).filling = .random ⟨0x3DCCCCCD⟩ (some 42) := rfl
  have hopening (entropy : UInt64) :
      Births (empty (scattered 42) entropy) [] (empty (scattered 42) entropy) := .opening
  obtain ⟨hseeded, hsame, -⟩ := seeded_stream hfilling
  have hbirths := (hopening 0).serve engine succession
  have hothers := (hopening 7).serve engine replacement
  rw [List.nil_append] at hbirths hothers
  have hvolumes : volumes newborns = volumes (other.entries.flatMap Entry.newborns) := by
    decide +kernel
  exact ⟨by decide +kernel, by decide +kernel, hseeded hbirths, by decide +kernel, by decide +kernel,
    by decide +kernel, (hsame hbirths hothers hvolumes).2, by decide +kernel⟩

end Store

end Membranes
