import Membranes.Store.Operation

/-!
# Outcomes of store operations

An operation of a store is atomic: a refusal leaves the store as it was. `Outcome.Atomically` joins
that with what holds after a success, and is the form in which every operation is described later.

* `atomically_checking`, `atomically_update` and `Atomically.andThen` carry it through the combinators
  of which operations are made, `Atomically.reply` through the change of the answer;
* `Atomically.cases` takes an atomic outcome apart, `Atomically.of_ok` reads off what a success does.
-/

namespace Membranes

/-! ### Looking up and storing -/

namespace Store

variable (store : Store)

theorem membrane_eq_ok_iff {id : MembraneId} {membrane : Membrane} :
    store.membrane id = .ok membrane ↔ store.membranes.find? id = some membrane := by
  unfold Store.membrane
  cases store.membranes.find? id <;> simp

theorem membrane_eq_error_iff {id : MembraneId} {refusal : Refusal} :
    store.membrane id = .error refusal ↔
      store.membranes.find? id = none ∧ Refusal.membraneNotFound id = refusal := by
  unfold Store.membrane
  cases store.membranes.find? id <;> simp

variable {store}

theorem membrane_of_find? {id : MembraneId} {membrane : Membrane}
    (h : store.membranes.find? id = some membrane) : store.membrane id = .ok membrane :=
  store.membrane_eq_ok_iff.mpr h

theorem parent_of_find? {id : MembraneId} {membrane : Membrane}
    (h : store.membranes.find? id = some membrane) : store.parent id = .ok membrane.parent :=
  map_eq_ok_iff.mpr ⟨membrane, membrane_of_find? h, rfl⟩

theorem symbols_of_find? {id : MembraneId} {membrane : Membrane}
    (h : store.membranes.find? id = some membrane) : store.symbols id = .ok membrane.symbols :=
  map_eq_ok_iff.mpr ⟨membrane, membrane_of_find? h, rfl⟩

theorem contains_iff {id : MembraneId} :
    store.contains id = true ↔ ∃ membrane, store.membranes.find? id = some membrane := by
  unfold Store.contains IdMap.contains
  exact Option.isSome_iff_exists

@[simp]
theorem find?_put (store : Store) (id other : MembraneId) (membrane : Membrane) :
    (store.put id membrane).membranes.find? other =
      if other = id then some membrane else store.membranes.find? other :=
  store.membranes.find?_insert id membrane other

theorem find?_put_self (store : Store) (id : MembraneId) (membrane : Membrane) :
    (store.put id membrane).membranes.find? id = some membrane := by
  rw [find?_put, if_pos rfl]

theorem contains_put {id other : MembraneId} {membrane : Membrane} (h : store.contains id = true) :
    (store.put other membrane).contains id = true := by
  rw [contains_iff] at h ⊢
  rw [find?_put]
  split
  · exact ⟨_, rfl⟩
  · exact h

@[simp]
theorem put_config (store : Store) (id : MembraneId) (membrane : Membrane) :
    (store.put id membrane).config = store.config := rfl

@[simp]
theorem put_roots (store : Store) (id : MembraneId) (membrane : Membrane) :
    (store.put id membrane).roots = store.roots := rfl

/-- Two stores are equal when they have the same membranes and agree in everything else. -/
theorem ext_find? {a b : Store} (hconfig : a.config = b.config)
    (hfind : ∀ id, a.membranes.find? id = b.membranes.find? id) (hroots : a.roots = b.roots)
    (hnext : a.nextId = b.nextId) (hdraws : a.draws = b.draws) : a = b := by
  have hmembranes := IdMap.ext_find? hfind
  cases a
  cases b
  simp_all

theorem put_self {id : MembraneId} {membrane : Membrane}
    (h : store.membranes.find? id = some membrane) : store.put id membrane = store := by
  refine ext_find? rfl (fun other => ?_) rfl rfl rfl
  rw [find?_put]
  split
  · rename_i heq
    rw [heq, h]
  · rfl

/-- Of two membranes put under one identifier the later one counts. -/
theorem put_put (store : Store) (id : MembraneId) (membrane changed : Membrane) :
    (store.put id membrane).put id changed = store.put id changed := by
  refine ext_find? rfl (fun other => ?_) rfl rfl rfl
  rw [find?_put, find?_put, find?_put]
  split <;> rfl

end Store

/-! ### Atomic outcomes -/

namespace Outcome

variable {α β : Type}

/-- The outcome is a refusal that leaves `store` as it was, or an answer for which `post` holds. -/
def Atomically (store : Store) (outcome : Outcome α) (post : α → Store → Prop) : Prop :=
  match outcome.answer with
  | .ok answer => post answer outcome.store
  | .error _ => outcome.store = store

variable {store after : Store} {outcome : Outcome α} {post : α → Store → Prop}

theorem Atomically.of_ok (h : outcome.Atomically store post) {answer : α}
    (hok : outcome.answer = .ok answer) : post answer outcome.store := by
  unfold Atomically at h
  rwa [hok] at h

theorem Atomically.of_eq_ok (h : outcome.Atomically store post) {answer : α}
    (heq : outcome = ⟨.ok answer, after⟩) : post answer after := by
  rw [heq] at h
  exact h.of_ok rfl

theorem Atomically.imp (h : outcome.Atomically store post) {weaker : α → Store → Prop}
    (himp : ∀ answer after, post answer after → weaker answer after) :
    outcome.Atomically store weaker := by
  unfold Atomically at h ⊢
  cases hanswer : outcome.answer with
  | ok answer =>
    rw [hanswer] at h
    exact himp _ _ h
  | error refusal =>
    rw [hanswer] at h
    exact h

theorem atomically_query (answer : Except Refusal α) {holds : Store → Prop} (h : holds store) :
    (⟨answer, store⟩ : Outcome α).Atomically store fun _ after => holds after := by
  cases answer with
  | ok _ => exact h
  | error _ => exact rfl

/-- A refusal or an answer, in the form in which an outcome is taken apart. -/
theorem Atomically.cases (h : outcome.Atomically store post) :
    (∃ refusal, outcome = ⟨.error refusal, store⟩) ∨
      ∃ answer after, outcome = ⟨.ok answer, after⟩ ∧ post answer after := by
  obtain ⟨answer, after⟩ := outcome
  cases answer with
  | ok answer => exact Or.inr ⟨answer, after, rfl, h⟩
  | error refusal =>
    obtain rfl : after = store := h
    exact Or.inl ⟨refusal, rfl⟩

/-- Going on from a success is atomic when nothing that follows can be refused. -/
theorem Atomically.andThen (h : outcome.Atomically store post) {next : α → Store → Outcome β}
    {last : β → Store → Prop}
    (hnext : ∀ answer after, post answer after →
      ∃ result final, next answer after = ⟨.ok result, final⟩ ∧ last result final) :
    (outcome.andThen next).Atomically store last := by
  rcases h.cases with ⟨refusal, rfl⟩ | ⟨answer, after, rfl, hpost⟩
  · exact rfl
  · obtain ⟨result, final, heq, hlast⟩ := hnext answer after hpost
    -- A refusal by `next` would leave `after` behind and not `store`; `hnext` excludes it.
    show (next answer after).Atomically store last
    rw [heq]
    exact hlast

/-- What goes on from an outcome is refused with it, or on its own account. -/
theorem andThen_eq_error_iff {next : α → Store → Outcome β} {refusal : Refusal} :
    (outcome.andThen next).answer = .error refusal ↔ outcome.answer = .error refusal ∨
      ∃ answer, outcome.answer = .ok answer ∧ (next answer outcome.store).answer = .error refusal := by
  unfold Outcome.andThen
  cases outcome.answer <;> simp

theorem Atomically.reply {holds : Store → Prop}
    (h : outcome.Atomically store fun _ after => holds after) (toReply : α → Reply) :
    (outcome.reply toReply).Atomically store fun _ after => holds after := by
  rcases h.cases with ⟨refusal, rfl⟩ | ⟨answer, after, rfl, hpost⟩
  · exact rfl
  · exact hpost

end Outcome

namespace Store

variable {α β : Type} {store : Store} {post : β → Store → Prop}

theorem atomically_checking {check : Except Refusal α} {next : α → Outcome β}
    (h : ∀ result, check = .ok result → (next result).Atomically store post) :
    (store.checking check next).Atomically store post := by
  cases check with
  | ok result => exact h result rfl
  | error refusal => exact rfl

theorem atomically_update {id : MembraneId} {change : Membrane → Except Refusal (β × Membrane)}
    (h : ∀ membrane answer changed, store.membranes.find? id = some membrane →
      change membrane = .ok (answer, changed) → post answer (store.put id changed)) :
    (store.update id change).Atomically store post := by
  apply atomically_checking
  rintro ⟨answer, changed⟩ hcheck
  cases hfind : store.membranes.find? id with
  -- Looking up what is not there is the refusal, so the check cannot have passed.
  | none => simp [Store.membrane, hfind, bind, Except.bind] at hcheck
  | some membrane =>
    rw [membrane_of_find? hfind] at hcheck
    exact h membrane answer changed hfind hcheck

theorem update_of_ok {id : MembraneId} {change : Membrane → Except Refusal (β × Membrane)}
    {membrane changed : Membrane} {answer : β} (hfind : store.membranes.find? id = some membrane)
    (hchange : change membrane = .ok (answer, changed)) :
    store.update id change = ⟨.ok answer, store.put id changed⟩ := by
  have hcheck : store.membrane id >>= change = .ok (answer, changed) := by
    rw [membrane_of_find? hfind]
    exact hchange
  unfold Store.update
  rw [hcheck]
  rfl

end Store

end Membranes
