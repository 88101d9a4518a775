import Mathlib.Data.List.Basic
import Membranes.Proofs.Store.Outcome

/-!
# What operations read and write

* `Store.AgreesOn` and `Store.AgreesOff`: two stores agree on the membranes under some identifiers,
  or on everything else.
* `Outcome.Within`: an operation of a store that reads and writes the membranes under some
  identifiers only. It may look at the limits, but not at the roots, the counter or the stream, and
  it leaves them alone. The lemmas after it carry this through the combinators of which operations
  are made.
* `Within.comm`: two operations within different identifiers do not notice each other.
* `Operation.within`: an operation that neither creates nor destroys stays within the identifiers
  that it names, and `within_run` says so of runs.
-/

namespace Membranes

namespace Store

/-- Two stores have the same limits and the same membranes under the given identifiers. -/
structure AgreesOn (ids : List MembraneId) (a b : Store) : Prop where
  config_eq : a.config = b.config
  find?_eq : ∀ id ∈ ids, a.membranes.find? id = b.membranes.find? id

/-- Two stores differ at most in the membranes under the given identifiers. -/
structure AgreesOff (ids : List MembraneId) (a b : Store) : Prop where
  config_eq : a.config = b.config
  roots_eq : a.roots = b.roots
  nextId_eq : a.nextId = b.nextId
  draws_eq : a.draws = b.draws
  find?_eq : ∀ id ∉ ids, a.membranes.find? id = b.membranes.find? id

variable {ids ids' : List MembraneId} {a b c store : Store} {id : MembraneId}

theorem AgreesOn.membrane_eq (h : AgreesOn ids a b) (hid : id ∈ ids) :
    a.membrane id = b.membrane id := by
  unfold Store.membrane
  rw [h.find?_eq id hid]

theorem AgreesOff.refl (ids : List MembraneId) (store : Store) : AgreesOff ids store store :=
  ⟨rfl, rfl, rfl, rfl, fun _ _ => rfl⟩

theorem AgreesOff.trans (h : AgreesOff ids a b) (h' : AgreesOff ids b c) : AgreesOff ids a c where
  config_eq := h.config_eq.trans h'.config_eq
  roots_eq := h.roots_eq.trans h'.roots_eq
  nextId_eq := h.nextId_eq.trans h'.nextId_eq
  draws_eq := h.draws_eq.trans h'.draws_eq
  find?_eq other hother := (h.find?_eq other hother).trans (h'.find?_eq other hother)

/-- What differs elsewhere is not noticed here. -/
theorem AgreesOff.agreesOn (h : AgreesOff ids a b) (hdisjoint : ids.Disjoint ids') :
    AgreesOn ids' a b :=
  ⟨h.config_eq, fun _ hid => h.find?_eq _ fun hother => hdisjoint hother hid⟩

theorem AgreesOff.put (hid : id ∈ ids) (store : Store) (membrane : Membrane) :
    AgreesOff ids store (store.put id membrane) := by
  refine ⟨rfl, rfl, rfl, rfl, fun other hother => ?_⟩
  have hne : other ≠ id := by
    rintro rfl
    exact hother hid
  rw [find?_put, if_neg hne]

theorem AgreesOn.put (h : AgreesOn ids a b) (id : MembraneId) (membrane : Membrane) :
    AgreesOn ids (a.put id membrane) (b.put id membrane) := by
  refine ⟨h.config_eq, fun other hother => ?_⟩
  rw [find?_put, find?_put, h.find?_eq other hother]

end Store

/-! ### Operations within identifiers -/

namespace Outcome

open Store

variable {α β : Type} {ids ids' : List MembraneId}

/-- The operation reads and writes the membranes under the given identifiers only. -/
structure Within (ids : List MembraneId) (operate : Store → Outcome α) : Prop where
  /-- All else stays as it is. -/
  writes : ∀ store, AgreesOff ids store (operate store).store
  /-- All else makes no difference. -/
  reads : ∀ {a b}, AgreesOn ids a b →
    (operate a).answer = (operate b).answer ∧ AgreesOn ids (operate a).store (operate b).store

variable {operate : Store → Outcome α} {other : Store → Outcome β} {a b store : Store}

theorem within_query {ask : Store → Except Refusal α}
    (hask : ∀ {a b}, AgreesOn ids a b → ask a = ask b) :
    Within ids fun store => ⟨ask store, store⟩ where
  writes store := .refl ids store
  reads h := ⟨hask h, h⟩

theorem within_put {id : MembraneId} (hid : id ∈ ids) (answer : α) (membrane : Membrane) :
    Within ids fun store => ⟨.ok answer, store.put id membrane⟩ where
  writes store := .put hid store membrane
  reads h := ⟨rfl, h.put id membrane⟩

theorem within_checking {check : Store → Except Refusal β} {next : β → Store → Outcome α}
    (hcheck : ∀ {a b}, AgreesOn ids a b → check a = check b)
    (hnext : ∀ result, Within ids (next result)) :
    Within ids fun store => store.checking (check store) fun result => next result store where
  writes store := by
    show AgreesOff ids store (store.checking (check store) _).store
    cases check store with
    | error refusal => exact .refl ids store
    | ok result => exact (hnext result).writes store
  reads := by
    intro a b h
    show (a.checking (check a) _).answer = (b.checking (check b) _).answer ∧
      AgreesOn ids (a.checking (check a) _).store (b.checking (check b) _).store
    rw [hcheck h]
    cases check b with
    | error refusal => exact ⟨rfl, h⟩
    | ok result => exact (hnext result).reads h

/-- What is done to a membrane may depend on the limits. -/
theorem within_update_config {id : MembraneId} (hid : id ∈ ids)
    (change : StoreConfig → Membrane → Except Refusal (α × Membrane)) :
    Within ids fun store => store.update id (change store.config) := by
  apply within_checking
  · intro a b h
    rw [h.membrane_eq hid, h.config_eq]
  · rintro ⟨answer, changed⟩
    exact within_put hid answer changed

theorem within_update {id : MembraneId} (hid : id ∈ ids)
    (change : Membrane → Except Refusal (α × Membrane)) :
    Within ids fun store => store.update id change :=
  within_update_config hid fun _ => change

theorem Within.andThen (h : Within ids operate) {next : α → Store → Outcome β}
    (hnext : ∀ answer, Within ids (next answer)) :
    Within ids fun store => (operate store).andThen next where
  writes store := by
    have hfirst := h.writes store
    unfold Outcome.andThen
    cases (operate store).answer with
    | error refusal => exact hfirst
    | ok answer => exact hfirst.trans ((hnext answer).writes _)
  reads := by
    intro a b hagrees
    obtain ⟨hanswer, hstore⟩ := h.reads hagrees
    unfold Outcome.andThen
    rw [hanswer]
    cases (operate b).answer with
    | error refusal => exact ⟨rfl, hstore⟩
    | ok answer => exact (hnext answer).reads hstore

theorem Within.reply (h : Within ids operate) (toReply : α → Reply) :
    Within ids fun store => (operate store).reply toReply where
  writes := h.writes
  reads hagrees := by
    obtain ⟨hanswer, hstore⟩ := h.reads hagrees
    exact ⟨congrArg (Except.map toReply) hanswer, hstore⟩

theorem Within.mono (h : Within ids operate) (hsubset : ids ⊆ ids') : Within ids' operate where
  writes store := by
    obtain ⟨hconfig, hroots, hnext, hdraws, hfind⟩ := h.writes store
    exact ⟨hconfig, hroots, hnext, hdraws, fun id hid => hfind id fun hmem => hid (hsubset hmem)⟩
  reads := by
    intro a b hagrees
    obtain ⟨hanswer, hconfig, hfind⟩ :=
      h.reads ⟨hagrees.config_eq, fun id hid => hagrees.find?_eq id (hsubset hid)⟩
    refine ⟨hanswer, hconfig, fun id hid => ?_⟩
    -- What is only in the larger list is written in neither store.
    by_cases hmem : id ∈ ids
    · exact hfind id hmem
    · rw [← (h.writes a).find?_eq id hmem, ← (h.writes b).find?_eq id hmem]
      exact hagrees.find?_eq id hid

/-- **Operations within different identifiers do not notice each other.** Each answers what it
answers without the other one, and they leave the same store behind in either order. -/
theorem Within.comm (h : Within ids operate) (h' : Within ids' other)
    (hdisjoint : ids.Disjoint ids') (store : Store) :
    (other (operate store).store).answer = (other store).answer ∧
      (operate (other store).store).answer = (operate store).answer ∧
      (other (operate store).store).store = (operate (other store).store).store := by
  have hfirst := h.writes store
  have hsecond := h'.writes store
  have hfirst' := h.writes (other store).store
  have hsecond' := h'.writes (operate store).store
  obtain ⟨hanswer, hstore⟩ := h.reads (hsecond.agreesOn (List.disjoint_symm hdisjoint))
  obtain ⟨hanswer', hstore'⟩ := h'.reads (hfirst.agreesOn hdisjoint)
  refine ⟨hanswer'.symm, hanswer.symm, ext_find? ?_ (fun id => ?_) ?_ ?_ ?_⟩
  · rw [← hsecond'.config_eq, ← hfirst'.config_eq, ← hfirst.config_eq, ← hsecond.config_eq]
  -- A membrane is within the one operation, or within the other, or within neither.
  · by_cases hid : id ∈ ids
    · have hnot : id ∉ ids' := fun hmem => hdisjoint hid hmem
      rw [← hsecond'.find?_eq id hnot, hstore.find?_eq id hid]
    · rw [← hfirst'.find?_eq id hid]
      by_cases hid' : id ∈ ids'
      · exact (hstore'.find?_eq id hid').symm
      · rw [← hsecond'.find?_eq id hid', ← hfirst.find?_eq id hid, hsecond.find?_eq id hid']
  · rw [← hsecond'.roots_eq, ← hfirst'.roots_eq, ← hfirst.roots_eq, ← hsecond.roots_eq]
  · rw [← hsecond'.nextId_eq, ← hfirst'.nextId_eq, ← hfirst.nextId_eq, ← hsecond.nextId_eq]
  · rw [← hsecond'.draws_eq, ← hfirst'.draws_eq, ← hfirst.draws_eq, ← hsecond.draws_eq]

end Outcome

/-! ### Operations as values -/

namespace Operation

open Outcome Store

/-- The identifiers that a request names. -/
def named : Operation → List MembraneId
  | create _ => []
  | moveSymbol source target _ => [source, target]
  | createUnder id _ | destroy id | reshape id _ | spendEnergy id _ | replaceContent id _ _ _
  | get id _ | set id _ _ | fill id _ | addSymbol id _ | removeSymbol id _ | holdsSymbol id _
  | symbols id => [id]

/-- Whether a request is one to create or to destroy membranes. -/
def isStructural : Operation → Bool
  | create _ | createUnder _ _ | destroy _ => true
  | _ => false

/-- **Without creation and destruction, an operation stays within what it names.** -/
theorem within (operation : Operation) (h : operation.isStructural = false) :
    Within operation.named operation.run := by
  cases operation with
  | create | createUnder | destroy => exact nomatch h
  | reshape id shape =>
    have hid : id ∈ [id] := List.mem_singleton_self id
    apply Within.reply
    apply within_checking fun hagrees => hagrees.membrane_eq hid
    intro _
    apply within_checking
    · intro a b hagrees
      unfold checkShape
      rw [hagrees.config_eq]
    · intro _
      exact within_update hid _
  | spendEnergy id amount => exact (within_update (List.mem_singleton_self id) _).reply _
  | replaceContent id shape buffer version =>
    apply Within.reply
    apply within_checking
    · intro a b hagrees
      unfold checkContent checkShape
      rw [hagrees.config_eq]
    · intro _
      exact within_update (List.mem_singleton_self id) _
  | get id indices =>
    apply within_query
    intro a b hagrees
    unfold Store.get
    rw [hagrees.membrane_eq (List.mem_singleton_self id)]
  | set id indices value => exact (within_update (List.mem_singleton_self id) _).reply _
  | fill id value => exact (within_update (List.mem_singleton_self id) _).reply _
  | addSymbol id symbol =>
    apply Within.reply
    apply within_checking fun _ => rfl
    intro _
    exact within_update_config (List.mem_singleton_self id) fun config membrane =>
      return ((), ← membrane.adding config.limits.maxObjects symbol)
  | removeSymbol id symbol => exact (within_update (List.mem_singleton_self id) _).reply _
  | holdsSymbol id symbol =>
    apply within_query
    intro a b hagrees
    unfold Store.holdsSymbol
    rw [hagrees.membrane_eq (List.mem_singleton_self id)]
  | symbols id =>
    apply within_query
    intro a b hagrees
    unfold Store.symbols
    rw [hagrees.membrane_eq (List.mem_singleton_self id)]
  | moveSymbol source target symbol =>
    have hsource : source ∈ [source, target] := List.mem_cons_self
    have htarget : target ∈ [source, target] := List.mem_cons_of_mem _ (List.mem_singleton_self _)
    apply Within.reply
    apply within_checking
    · intro a b hagrees
      unfold checkMove
      rw [hagrees.membrane_eq hsource, hagrees.membrane_eq htarget, hagrees.config_eq]
    · intro _
      by_cases hsame : source = target
      · simp only [if_pos hsame]
        exact within_query fun _ => rfl
      · simp only [if_neg hsame]
        exact (within_update htarget fun taker =>
          .ok ((), if taker.holds symbol then taker else taker.withSymbol symbol)).andThen
          fun _ => within_update hsource fun giver => .ok ((), giver.withoutSymbol symbol)

/-- A run of such operations stays within the identifiers that it names. -/
theorem within_run (operations : List Operation)
    (h : ∀ operation ∈ operations, operation.isStructural = false) :
    Within (operations.flatMap named) fun store =>
      ⟨.ok (store.answers operations), store.after operations⟩ := by
  induction operations with
  | nil => exact within_query fun _ => rfl
  | cons operation operations ih =>
    obtain ⟨hfirst, hrest⟩ := List.forall_mem_cons.mp h
    have hstep := (operation.within hfirst).mono
      (List.subset_append_left operation.named (operations.flatMap named))
    have hrun := (ih hrest).mono
      (List.subset_append_right operation.named (operations.flatMap named))
    refine ⟨fun store => (hstep.writes store).trans (hrun.writes _), ?_⟩
    intro a b hagrees
    obtain ⟨hanswer, hstore⟩ := hstep.reads hagrees
    obtain ⟨hanswers, hafter⟩ := hrun.reads hstore
    refine ⟨?_, hafter⟩
    show Except.ok ((operation.run a).answer :: (operation.run a).store.answers operations) =
      .ok ((operation.run b).answer :: (operation.run b).store.answers operations)
    rw [hanswer, Except.ok.inj hanswers]

end Operation

end Membranes
