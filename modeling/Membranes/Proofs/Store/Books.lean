import Membranes.Proofs.Store.Footprint
import Membranes.Proofs.Store.Ownership

/-!
# What requests count for

A membrane keeps three numbers: its version, the number of its mutations, and its energy.

* `Operation.changes` and `Operation.spends`: what a request counts for when it is carried out, as a
  change of a membrane and in energy. A request that names a membrane need not count for it.
* `Operation.booked`: the numbers follow that, whatever is asked for, unless it is the installation
  of a copy, which brings a version of its own.
-/

namespace Membranes

/-! ### Numbers -/

/-- The numbers of a membrane after a request that counts as a change of it, or not, and that spends
some of its energy. -/
structure Membrane.Follows (before after : Membrane) (changes : Bool) (spent : ℕ) : Prop where
  version_eq : after.version = if changes then before.version + 1 else before.version
  operations_eq : after.operations = if changes then before.operations + 1 else before.operations
  energy_eq : after.energy.toNat + spent = before.energy.toNat

/-- The numbers of a membrane are those with which membranes are created. -/
structure Membrane.IsNew (limits : Limits) (membrane : Membrane) : Prop where
  version_eq : membrane.version = 1
  operations_eq : membrane.operations = 0
  energy_eq : membrane.energy = limits.initialEnergy

theorem Membrane.follows_refl (membrane : Membrane) : membrane.Follows membrane false 0 :=
  ⟨rfl, rfl, rfl⟩

theorem Membrane.Mutates.follows {limits : Limits} {before after : Membrane}
    (h : before.Mutates limits after) : before.Follows after true 0 := by
  cases h <;> exact ⟨rfl, rfl, rfl⟩

namespace Operation

/-- Whether a request changes a membrane when it is carried out. A symbol that is there already is
not added again, and one that is moved to where it is stays there; what is to be removed or moved is
there, or else the request is refused. -/
def changes (store : Store) (id : MembraneId) : Operation → Bool
  | reshape other _ | set other _ _ | fill other _ | removeSymbol other _ => other = id
  | addSymbol other symbol => other = id ∧ store.holdsSymbol other symbol = .ok false
  | moveSymbol source target symbol =>
    source ≠ target ∧
      (source = id ∨ target = id ∧ store.holdsSymbol target symbol = .ok false)
  | _ => false

/-- The energy that a membrane spends when a request is carried out. -/
def spends (id : MembraneId) : Operation → ℕ
  | spendEnergy other amount => if other = id then amount.toNat else 0
  | _ => 0

/-- Whether a request is one to install a copy. -/
def isInstallation : Operation → Bool
  | replaceContent _ _ _ _ => true
  | _ => false

variable {store after : Store} {operation : Operation} {id : MembraneId}
  {membrane changed : Membrane}

theorem changes_of_not_named (h : id ∉ operation.named) : operation.changes store id = false := by
  cases operation <;> simp_all [named, changes, eq_comm]

theorem spends_of_not_named (h : id ∉ operation.named) : operation.spends id = 0 := by
  cases operation <;> simp_all [named, spends, eq_comm]

/-- What a request that was carried out has done to the books: what it named was there, and the
numbers of what is there now are those of before, with what the request counts for, or those of
something new. -/
structure Booked (operation : Operation) (store after : Store) : Prop where
  live : ∀ id ∈ operation.named, store.contains id = true
  follows : ∀ {id current}, after.membranes.find? id = some current →
    (∃ before, store.membranes.find? id = some before ∧
      before.Follows current (operation.changes store id) (operation.spends id)) ∨
    id = ⟨store.nextId⟩ ∧ current.IsNew store.config.limits

/-- A membrane that a request does not name keeps its numbers. -/
theorem follows_of_not_named (h : id ∉ operation.named) (membrane : Membrane) :
    membrane.Follows membrane (operation.changes store id) (operation.spends id) := by
  rw [changes_of_not_named h, spends_of_not_named h]
  exact membrane.follows_refl

theorem booked_put (hfind : store.membranes.find? id = some membrane)
    (hnamed : operation.named = [id])
    (hfollows : membrane.Follows changed (operation.changes store id) (operation.spends id)) :
    operation.Booked store (store.put id changed) where
  live := by
    rw [hnamed]
    exact List.forall_mem_singleton.mpr (Store.contains_iff.mpr ⟨membrane, hfind⟩)
  follows := by
    intro other current hcurrent
    rw [Store.find?_put] at hcurrent
    split at hcurrent
    · rename_i heq
      obtain rfl := Option.some.inj hcurrent
      exact Or.inl ⟨membrane, heq ▸ hfind, heq ▸ hfollows⟩
    · rename_i hne
      have hother : other ∉ operation.named := by simpa [hnamed] using hne
      exact Or.inl ⟨current, hcurrent, follows_of_not_named hother current⟩

/-- A request that leaves the store as it is. -/
theorem booked_self (hlive : ∀ id ∈ operation.named, store.contains id = true)
    (hchanges : ∀ id, operation.changes store id = false)
    (hspends : ∀ id, operation.spends id = 0) :
    operation.Booked store store where
  live := hlive
  follows := by
    intro id current hcurrent
    refine Or.inl ⟨current, hcurrent, ?_⟩
    rw [hchanges, hspends]
    exact current.follows_refl

/-- Creation and destruction leave behind what was there, with other children, and what is new. -/
theorem booked_of_isStructural (h : operation.isStructural = true)
    (hlive : ∀ id ∈ operation.named, store.contains id = true)
    (hfind : ∀ {id current}, after.membranes.find? id = some current →
      (∃ before children, store.membranes.find? id = some before ∧
        current = { before with children }) ∨
      id = ⟨store.nextId⟩ ∧ current.IsNew store.config.limits) : operation.Booked store after where
  live := hlive
  follows := by
    intro id current hcurrent
    have hchanges : operation.changes store id = false := by
      cases operation <;> first | rfl | exact nomatch h
    have hspends : operation.spends id = 0 := by cases operation <;> first | rfl | exact nomatch h
    rw [hchanges, hspends]
    obtain ⟨before, children, hbefore, rfl⟩ | hnew := hfind hcurrent
    · exact Or.inl ⟨before, hbefore, ⟨rfl, rfl, rfl⟩⟩
    · exact Or.inr hnew

theorem find?_withFresh_cases {shape : Shape} {parent : Option MembraneId} {current : Membrane}
    (h : (store.withFresh shape parent).membranes.find? id = some current) :
    store.membranes.find? id = some current ∨
      id = ⟨store.nextId⟩ ∧ current.IsNew store.config.limits := by
  rw [Store.find?_withFresh] at h
  split at h
  · rename_i heq
    obtain rfl := Option.some.inj h
    exact Or.inr ⟨heq, ⟨rfl, rfl, rfl⟩⟩
  · exact Or.inl h

theorem booked_create {shape : Shape} : (create shape).Booked store (store.withRoot shape) := by
  refine booked_of_isStructural rfl (fun _ hmem => nomatch hmem) fun {id current} hcurrent => ?_
  have hfresh : (store.withFresh shape none).membranes.find? id = some current := hcurrent
  obtain hold | hnew := find?_withFresh_cases hfresh
  · exact Or.inl ⟨current, current.children, hold, rfl⟩
  · exact Or.inr hnew

theorem booked_createUnder {owner : MembraneId} {shape : Shape}
    (howner : store.checkOwner owner = .ok ()) :
    (createUnder owner shape).Booked store (store.withChild owner shape) := by
  refine booked_of_isStructural rfl ?_ fun {id current} hcurrent => ?_
  · exact List.forall_mem_singleton.mpr (Store.live_of_checkOwner howner)
  · have hrenames : (store.withFresh shape (some owner)).Renames (store.withChild owner shape) owner
        (· ++ [⟨store.nextId⟩]) := Store.find?_attach _ owner _
    obtain ⟨before, children, hbefore, rfl⟩ := hrenames.find?_eq_some hcurrent
    obtain hold | ⟨hid, hnew⟩ := find?_withFresh_cases hbefore
    · exact Or.inl ⟨before, children, hold, rfl⟩
    · exact Or.inr ⟨hid, ⟨hnew.version_eq, hnew.operations_eq, hnew.energy_eq⟩⟩

theorem booked_destroy (hfind : store.membranes.find? id = some membrane) :
    (destroy id).Booked store (store.withoutSubtree id membrane.parent) := by
  refine booked_of_isStructural rfl ?_ fun {other current} hcurrent => ?_
  · exact List.forall_mem_singleton.mpr (Store.contains_iff.mpr ⟨membrane, hfind⟩)
  · exact Or.inl (Store.find?_withoutSubtree_eq_some hcurrent)

theorem booked_mutation (hfind : store.membranes.find? id = some membrane)
    (hmutates : membrane.Mutates store.config.limits changed) (hnamed : operation.named = [id])
    (hchanges : operation.changes store id = true) (hspends : operation.spends id = 0) :
    operation.Booked store (store.put id changed) := by
  apply booked_put hfind hnamed
  rw [hchanges, hspends]
  exact hmutates.follows

theorem holdsSymbol_of_find? (hfind : store.membranes.find? id = some membrane) (symbol : String) :
    store.holdsSymbol id symbol = .ok (membrane.holds symbol) := by
  unfold Store.holdsSymbol
  rw [Store.membrane_of_find? hfind]
  rfl

theorem booked_addSymbol {symbol : String} (hfind : store.membranes.find? id = some membrane)
    (h : membrane.holds symbol = true ∧ after = store ∨
      membrane.holds symbol = false ∧
        membrane.symbols.length < store.config.limits.maxObjects.toNat ∧
        after = store.put id (membrane.withSymbol symbol)) :
    (addSymbol id symbol).Booked store after := by
  have hholds := holdsSymbol_of_find? hfind symbol
  obtain ⟨hpresent, rfl⟩ | ⟨hlacks, hroom, rfl⟩ := h
  · apply booked_self
    · exact List.forall_mem_singleton.mpr (Store.contains_iff.mpr ⟨membrane, hfind⟩)
    · intro other
      simp [changes, hholds, hpresent]
    · exact fun _ => rfl
  · apply booked_mutation hfind (.gain hlacks hroom) rfl
    · simp [changes, hholds, hlacks]
    · rfl

/-- Both sides of a transfer. -/
theorem booked_moveSymbol {source target : MembraneId} {symbol : String} {giver taker : Membrane}
    (hgiver : store.membranes.find? source = some giver)
    (htaker : store.membranes.find? target = some taker)
    (h : source = target ∧ after = store ∨ source ≠ target ∧
      after = (store.put target (if taker.holds symbol then taker else taker.withSymbol symbol)).put
        source (giver.withoutSymbol symbol)) :
    (moveSymbol source target symbol).Booked store after := by
  have hlive : ∀ id ∈ (moveSymbol source target symbol).named, store.contains id = true := by
    have hsource := Store.contains_iff.mpr ⟨giver, hgiver⟩
    have htarget := Store.contains_iff.mpr ⟨taker, htaker⟩
    simp [named, hsource, htarget]
  have hholds := holdsSymbol_of_find? htaker symbol
  obtain ⟨rfl, rfl⟩ | ⟨hdiffer, rfl⟩ := h
  · exact booked_self hlive (fun other => by simp [changes]) fun _ => rfl
  · refine ⟨hlive, fun {other current} hcurrent => Or.inl ?_⟩
    rw [Store.find?_put, Store.find?_put] at hcurrent
    -- The source counts always, the target only when the symbol is new to it.
    by_cases hsource : other = source
    · rw [if_pos hsource] at hcurrent
      obtain rfl := Option.some.inj hcurrent
      have hchanges : (moveSymbol source target symbol).changes store other = true := by
        simp [changes, hdiffer, hsource]
      rw [hchanges]
      exact ⟨giver, hsource ▸ hgiver, ⟨rfl, rfl, rfl⟩⟩
    · rw [if_neg hsource] at hcurrent
      by_cases htarget : other = target
      · rw [if_pos htarget] at hcurrent
        obtain rfl := Option.some.inj hcurrent
        have hchanges :
            (moveSymbol source target symbol).changes store other = !taker.holds symbol := by
          simp [changes, hdiffer, htarget, hholds]
        rw [hchanges]
        refine ⟨taker, htarget ▸ htaker, ?_⟩
        cases taker.holds symbol with
        | true => exact taker.follows_refl
        | false => exact ⟨rfl, rfl, rfl⟩
      · rw [if_neg htarget] at hcurrent
        have hother : other ∉ (moveSymbol source target symbol).named := by
          simp [named, hsource, htarget]
        exact ⟨current, hcurrent, follows_of_not_named hother current⟩

/-- A question to a membrane, which is not answered when there is none. -/
theorem booked_query {answer : Except Refusal Reply} (hnamed : operation.named = [id])
    (hanswer : ∀ refusal, store.membrane id = .error refusal → answer = .error refusal)
    (hchanges : ∀ id, operation.changes store id = false)
    (hspends : ∀ id, operation.spends id = 0) :
    (⟨answer, store⟩ : Outcome Reply).Atomically store fun _ after =>
      operation.Booked store after := by
  cases hfind : store.membranes.find? id with
  | none =>
    rw [hanswer _ (store.membrane_eq_error_iff.mpr ⟨hfind, rfl⟩)]
    exact rfl
  | some membrane =>
    apply Outcome.atomically_query
    apply booked_self _ hchanges hspends
    rw [hnamed]
    exact List.forall_mem_singleton.mpr (Store.contains_iff.mpr ⟨membrane, hfind⟩)

/-- **What a request does to the books,** whatever it asks for, unless it installs a copy. -/
theorem booked (operation : Operation) (store : Store) (h : operation.isInstallation = false) :
    (operation.run store).Atomically store fun _ after => operation.Booked store after := by
  cases operation with
  | replaceContent => exact nomatch h
  | create shape =>
    apply Outcome.Atomically.reply
    refine (Store.create_atomically shape).imp ?_
    rintro _ _ ⟨-, -, rfl⟩
    exact booked_create
  | createUnder owner shape =>
    apply Outcome.Atomically.reply
    refine (Store.createUnder_atomically owner shape).imp ?_
    rintro _ _ ⟨howner, -, -, rfl⟩
    exact booked_createUnder howner
  | destroy id =>
    apply Outcome.Atomically.reply
    refine (Store.destroy_atomically id).imp ?_
    rintro _ _ ⟨membrane, hfind, -, rfl⟩
    exact booked_destroy hfind
  | reshape id shape =>
    apply Outcome.Atomically.reply
    refine (Store.reshape_atomically id shape).imp ?_
    rintro _ _ ⟨membrane, hfind, hadmits, hvolume, rfl⟩
    exact booked_mutation hfind (.reshape hadmits hvolume) rfl (by simp [changes]) rfl
  | spendEnergy id amount =>
    apply Outcome.Atomically.reply
    refine (Store.spendEnergy_atomically id amount).imp ?_
    rintro _ _ ⟨membrane, hfind, hamount, -, rfl⟩
    refine booked_put hfind rfl ⟨rfl, rfl, ?_⟩
    show (membrane.energy - amount).toNat + (if id = id then amount.toNat else 0) = _
    have hle := UInt32.le_iff_toNat_le.mp hamount
    rw [if_pos rfl, UInt32.toNat_sub_of_le _ _ hamount]
    omega
  | set id indices value =>
    apply Outcome.Atomically.reply
    refine (Store.set_atomically id indices value).imp ?_
    rintro _ _ ⟨membrane, offset, hfind, -, rfl⟩
    exact booked_mutation hfind (.rewrite Array.size_setIfInBounds) rfl (by simp [changes]) rfl
  | fill id value =>
    apply Outcome.Atomically.reply
    refine (Store.fill_atomically id value).imp ?_
    rintro _ _ ⟨membrane, hfind, rfl⟩
    exact booked_mutation hfind (.filled _ membrane value) rfl (by simp [changes]) rfl
  | addSymbol id symbol =>
    apply Outcome.Atomically.reply
    refine (Store.addSymbol_atomically id symbol).imp ?_
    rintro _ _ ⟨membrane, hfind, hadded⟩
    exact booked_addSymbol hfind hadded
  | removeSymbol id symbol =>
    apply Outcome.Atomically.reply
    refine (Store.removeSymbol_atomically id symbol).imp ?_
    rintro _ _ ⟨membrane, hfind, hholds, rfl⟩
    exact booked_mutation hfind (.lose hholds) rfl (by simp [changes]) rfl
  | moveSymbol source target symbol =>
    apply Outcome.Atomically.reply
    refine (Store.moveSymbol_atomically source target symbol).imp ?_
    rintro _ _ ⟨giver, taker, hgiver, htaker, -, hmoved⟩
    exact booked_moveSymbol hgiver htaker (hmoved.imp_right fun ⟨hdiffer, _, hafter⟩ =>
      ⟨hdiffer, hafter⟩)
  | get id indices =>
    refine booked_query rfl (fun refusal hdead => ?_) (fun _ => rfl) fun _ => rfl
    unfold Store.get
    rw [hdead]
    rfl
  | holdsSymbol id symbol =>
    refine booked_query rfl (fun refusal hdead => ?_) (fun _ => rfl) fun _ => rfl
    unfold Store.holdsSymbol
    rw [hdead]
    rfl
  | symbols id =>
    refine booked_query rfl (fun refusal hdead => ?_) (fun _ => rfl) fun _ => rfl
    unfold Store.symbols
    rw [hdead]
    rfl

end Operation

end Membranes
