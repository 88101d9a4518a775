import Mathlib.Data.List.Induction
import Mathlib.Data.List.Infix
import Membranes.Proofs.Store.Books
import Membranes.Proofs.Store.Clients
import Membranes.Proofs.Store.Refused

/-!
# The accounts of a run

* `Store.total`: what the successful requests of a run count for together; `Store.changesOf` and
  `Store.spentBy` are the changes of a membrane and the energy it spent.
* `Balanced.snoc`: one more request keeps the numbers of all live membranes in balance with the
  totals. What is created takes an identifier for which nothing was counted, since the counter never
  goes back.
* `Store.accounts`: so they are in balance after every run that clients make through a handle.
-/

namespace Membranes

namespace Store

open SharedStore

variable {store last : Store} {id : MembraneId}

/-! ### The counter -/

/-- The counter never goes back. -/
theorem Step.nextId_le (h : store.Step last) : store.nextId ≤ last.nextId := by
  have hfresh : ∀ {shape}, store.checkRoom shape = .ok () → store.nextId ≤ store.nextId + 1 := by
    intro shape hroom
    obtain ⟨-, -, hcounter⟩ := checkRoom_eq_ok_iff.mp hroom
    exact UInt32.le_of_lt ((lt_nextId_add_one hcounter).mpr (UInt32.le_refl _))
  cases h with
  | mutate | install | spend => exact UInt32.le_refl _
  | root hroom => exact hfresh hroom
  | child _ hroom =>
    unfold withChild
    rw [attach_nextId]
    exact hfresh hroom
  | destroy =>
    rw [withoutSubtree_nextId]
    exact UInt32.le_refl _

theorem Steps.nextId_le (h : store.Steps last) : store.nextId ≤ last.nextId := by
  induction h with
  | refl => exact UInt32.le_refl _
  | tail _ hstep ih => exact UInt32.le_trans ih hstep.nextId_le

/-! ### Totals -/

/-- What the successful requests of a run count for together. -/
def total (weigh : Store → Operation → ℕ) (store : Store) : List Operation → ℕ
  | [] => 0
  | operation :: operations =>
    (if (operation.run store).answer.isOk then weigh store operation else 0) +
      total weigh (operation.run store).store operations

/-- How often a run changes a membrane. -/
def changesOf (store : Store) (id : MembraneId) (operations : List Operation) : ℕ :=
  total (fun store operation => if operation.changes store id then 1 else 0) store operations

/-- The energy that a membrane spends in a run. -/
def spentBy (store : Store) (id : MembraneId) (operations : List Operation) : ℕ :=
  total (fun _ operation => operation.spends id) store operations

theorem after_snoc (store : Store) (operations : List Operation) (operation : Operation) :
    store.after (operations ++ [operation]) = (operation.run (store.after operations)).store := by
  unfold Store.after
  rw [List.foldl_append]
  rfl

theorem total_snoc (weigh : Store → Operation → ℕ) (store : Store) (operations : List Operation)
    (operation : Operation) :
    total weigh store (operations ++ [operation]) = total weigh store operations +
      if (operation.run (store.after operations)).answer.isOk then
        weigh (store.after operations) operation else 0 := by
  induction operations generalizing store with
  | nil => exact Nat.add_comm _ 0
  | cons first operations ih =>
    show _ + total weigh (first.run store).store (operations ++ [operation]) =
      _ + total weigh (first.run store).store operations + _
    rw [ih, Nat.add_assoc]
    rfl

theorem Sound.after (h : store.Sound) (operations : List Operation) :
    (store.after operations).Sound := by
  induction operations generalizing store with
  | nil => exact h
  | cons operation operations ih => exact ih (h.steps (steps_run operation store))

theorem config_after (store : Store) (operations : List Operation) :
    (store.after operations).config = store.config := by
  induction operations generalizing store with
  | nil => rfl
  | cons operation operations ih => exact (ih _).trans (steps_run operation store).config_eq

/-! ### Balance -/

/-- No live membrane has reached the last version. -/
def VersionsLeft (store : Store) : Prop :=
  ∀ membrane ∈ store.membranes.values, membrane.version.toNat < UInt64.size - 1

instance (store : Store) : Decidable store.VersionsLeft :=
  inferInstanceAs (Decidable (∀ membrane ∈ store.membranes.values, _))

theorem VersionsLeft.lt (h : store.VersionsLeft) {membrane : Membrane}
    (hfind : store.membranes.find? id = some membrane) : membrane.version.toNat < UInt64.size - 1 :=
  h membrane (List.mem_map.mpr ⟨(id, membrane), IdMap.mem_entries_iff.mpr hfind, rfl⟩)

/-- The numbers of the live membranes are in balance with what a run has counted for. -/
structure Balanced (start : Store) (operations : List Operation) : Prop where
  live : ∀ {id membrane}, (start.after operations).membranes.find? id = some membrane →
    membrane.version.toNat = 1 + start.changesOf id operations ∧
      membrane.operations.toNat = start.changesOf id operations ∧
      membrane.energy.toNat + start.spentBy id operations = start.config.limits.initialEnergy.toNat
  /-- Nothing was counted for identifiers that are still to come. -/
  ahead : ∀ {id}, (start.after operations).nextId ≤ id.value →
    start.changesOf id operations = 0 ∧ start.spentBy id operations = 0

theorem balanced_nil (config : StoreConfig) (entropy : UInt64) :
    (Store.empty config entropy).Balanced [] where
  live hfind := nomatch hfind
  ahead _ := ⟨rfl, rfl⟩

variable {start : Store} {operations : List Operation} {operation : Operation}

theorem total_snoc_of_ok (weigh : Store → Operation → ℕ) {reply : Reply}
    (h : (operation.run (start.after operations)).answer = .ok reply) :
    total weigh start (operations ++ [operation]) =
      total weigh start operations + weigh (start.after operations) operation := by
  rw [total_snoc, h]
  rfl

theorem total_snoc_of_error (weigh : Store → Operation → ℕ) {refusal : Refusal}
    (h : (operation.run (start.after operations)).answer = .error refusal) :
    total weigh start (operations ++ [operation]) = total weigh start operations := by
  rw [total_snoc, h]
  rfl

/-- What was in balance with the numbers before is in balance with those that follow. -/
theorem balance_follows {before current : Membrane} {changes : Bool}
    {changed spent amount initial : ℕ}
    (hfollows : before.Follows current changes amount)
    (hleft : before.version.toNat < UInt64.size - 1)
    (hversion : before.version.toNat = 1 + changed)
    (hoperations : before.operations.toNat = changed)
    (henergy : before.energy.toNat + spent = initial) :
    current.version.toNat = 1 + (changed + if changes then 1 else 0) ∧
      current.operations.toNat = changed + (if changes then 1 else 0) ∧
      current.energy.toNat + (spent + amount) = initial := by
  have hsize : changed + 1 < UInt64.size - 1 := by omega
  have hspent := hfollows.energy_eq
  rw [hfollows.version_eq, hfollows.operations_eq]
  cases changes with
  | false =>
    refine ⟨hversion, hoperations, ?_⟩
    omega
  | true =>
    -- The version has not reached the last one, so neither counter wraps.
    have hnext : ∀ {counter : UInt64} {count}, counter.toNat = count → count < UInt64.size - 1 →
        (counter + 1).toNat = count + 1 := by
      intro counter count hcount hlt
      rw [UInt64.toNat_add, hcount]
      exact Nat.mod_eq_of_lt (show count + 1 < UInt64.size by omega)
    refine ⟨?_, ?_, ?_⟩
    · exact (hnext hversion (by omega)).trans (Nat.add_assoc 1 changed 1)
    · exact hnext hoperations (by omega)
    · omega

/-- One more request keeps the numbers in balance. -/
theorem Balanced.snoc (h : start.Balanced operations) (hsound : start.Sound)
    (hleft : (start.after operations).VersionsLeft) (hplain : operation.isInstallation = false) :
    start.Balanced (operations ++ [operation]) := by
  have hsound' := hsound.after operations
  cases hanswer : (operation.run (start.after operations)).answer with
  | error refusal =>
    have hchanges : ∀ id,
        start.changesOf id (operations ++ [operation]) = start.changesOf id operations :=
      fun _ => total_snoc_of_error _ hanswer
    have hspent : ∀ id,
        start.spentBy id (operations ++ [operation]) = start.spentBy id operations :=
      fun _ => total_snoc_of_error _ hanswer
    constructor
    · intro id membrane hfind
      rw [after_snoc, run_of_error hanswer] at hfind
      rw [hchanges, hspent]
      exact h.live hfind
    · intro id hahead
      rw [after_snoc, run_of_error hanswer] at hahead
      rw [hchanges, hspent]
      exact h.ahead hahead
  | ok reply =>
    have hbooked := (operation.booked _ hplain).of_ok hanswer
    have hchanges : ∀ id, start.changesOf id (operations ++ [operation]) =
        start.changesOf id operations +
          if operation.changes (start.after operations) id then 1 else 0 :=
      fun _ => total_snoc_of_ok _ hanswer
    have hspent : ∀ id, start.spentBy id (operations ++ [operation]) =
        start.spentBy id operations + operation.spends id :=
      fun _ => total_snoc_of_ok _ hanswer
    have hahead : ∀ id : MembraneId, (start.after operations).nextId ≤ id.value →
        start.changesOf id (operations ++ [operation]) = 0 ∧
          start.spentBy id (operations ++ [operation]) = 0 := by
      intro id hle
      -- What names an identifier that is not in use is refused.
      have hnamed : id ∉ operation.named := by
        intro hnamed
        obtain ⟨membrane, hfind⟩ := contains_iff.mp (hbooked.live id hnamed)
        exact UInt32.lt_irrefl _ (UInt32.lt_of_lt_of_le (hsound'.lt_nextId hfind) hle)
      obtain ⟨hchanged, hspent'⟩ := h.ahead hle
      rw [hchanges, hspent, hchanged, hspent', Operation.changes_of_not_named hnamed,
        Operation.spends_of_not_named hnamed]
      exact ⟨rfl, rfl⟩
    constructor
    · intro id membrane hfind
      rw [after_snoc] at hfind
      obtain ⟨before, hbefore, hfollows⟩ | ⟨rfl, hnew⟩ := hbooked.follows hfind
      · obtain ⟨hversion, hoperations, henergy⟩ := h.live hbefore
        rw [hchanges, hspent]
        exact balance_follows hfollows (hleft.lt hbefore) hversion hoperations henergy
      · obtain ⟨hchanged, hspent'⟩ := hahead ⟨(start.after operations).nextId⟩ (UInt32.le_refl _)
        rw [hchanged, hspent', hnew.version_eq, hnew.operations_eq, hnew.energy_eq, config_after]
        exact ⟨rfl, rfl, rfl⟩
    · intro id hle
      rw [after_snoc] at hle
      exact hahead id (UInt32.le_trans (steps_run operation _).nextId_le hle)

/-- The numbers of all live membranes are in balance after every run. -/
theorem balanced (config : StoreConfig) (entropy : UInt64) (operations : List Operation)
    (hplain : ∀ operation ∈ operations, operation.isInstallation = false)
    (hleft : ∀ before, before <+: operations →
      ((Store.empty config entropy).after before).VersionsLeft) :
    (Store.empty config entropy).Balanced operations := by
  induction operations using List.reverseRecOn with
  | nil => exact balanced_nil config entropy
  | append_singleton operations operation ih =>
    have hbefore : operations <+: operations ++ [operation] := List.prefix_append _ _
    have hearlier := ih (fun other hother => hplain other (List.mem_append_left _ hother))
      fun before hinit => hleft before (hinit.trans hbefore)
    exact hearlier.snoc (sound_empty config entropy) (hleft operations hbefore)
      (hplain operation (List.mem_append_right _ (List.mem_singleton_self operation)))

/-- The numbers of a membrane that is there before a request and behind it. -/
theorem Sound.follows_run (h : store.Sound) (hplain : operation.isInstallation = false)
    {membrane current : Membrane} (hfind : store.membranes.find? id = some membrane)
    (hcurrent : (operation.run store).store.membranes.find? id = some current) :
    membrane.Follows current ((operation.run store).answer.isOk && operation.changes store id)
      (if (operation.run store).answer.isOk then operation.spends id else 0) := by
  cases hanswer : (operation.run store).answer with
  | error refusal =>
    rw [run_of_error hanswer] at hcurrent
    obtain rfl := Option.some.inj (hfind.symm.trans hcurrent)
    exact membrane.follows_refl
  | ok reply =>
    have hbooked := (operation.booked store hplain).of_ok hanswer
    obtain ⟨before, hbefore, hfollows⟩ | ⟨rfl, -⟩ := hbooked.follows hcurrent
    · obtain rfl := Option.some.inj (hfind.symm.trans hbefore)
      exact hfollows
    · exact nomatch hfind.symm.trans h.find?_nextId

/-- **The accounts of a run.** Clients send requests through the handle of a store that begins
empty, in any order, and none of them installs a copy. As long as no version reaches the last one,
the version of every live membrane is one more than its number of operations, which is the number of
the requests that have changed it, and its energy together with what it has spent is what membranes
begin with. From one request to the next the three numbers move only as far as that request counts
for the membrane, and not at all when it is refused. -/
theorem accounts {κ : Type} (config : StoreConfig) (entropy : UInt64)
    (requests : List (κ × Operation))
    (hplain : ∀ request ∈ requests, request.2.isInstallation = false)
    (hleft : ∀ before, before <+: requests.map (·.2) →
      ((Store.empty config entropy).after before).VersionsLeft) :
    (∀ id membrane,
      ((ofStore (.empty config entropy)).serveAll requests).2.store.membranes.find? id =
        some membrane →
      membrane.version.toNat = 1 + membrane.operations.toNat ∧
      membrane.operations.toNat = (Store.empty config entropy).changesOf id (requests.map (·.2)) ∧
      membrane.energy.toNat + (Store.empty config entropy).spentBy id (requests.map (·.2)) =
        config.limits.initialEnergy.toNat) ∧
    ∀ before operation, before ++ [operation] <+: requests.map (·.2) → ∀ id membrane current,
      let store := (Store.empty config entropy).after before
      store.membranes.find? id = some membrane →
      (operation.run store).store.membranes.find? id = some current →
        membrane.Follows current ((operation.run store).answer.isOk && operation.changes store id)
          (if (operation.run store).answer.isOk then operation.spends id else 0) := by
  have hplains : ∀ operation ∈ requests.map (·.2), operation.isInstallation = false := by
    intro operation hmem
    obtain ⟨request, hrequest, rfl⟩ := List.mem_map.mp hmem
    exact hplain request hrequest
  constructor
  · intro id membrane hfind
    rw [serveAll_ofStore] at hfind
    obtain ⟨hversion, hoperations, henergy⟩ := (balanced config entropy _ hplains hleft).live hfind
    refine ⟨?_, hoperations, henergy⟩
    rw [hversion, hoperations]
  · intro before operation hinit id membrane current store hfind hcurrent
    have hmem : operation ∈ requests.map (·.2) := hinit.subset (by simp)
    exact ((sound_empty config entropy).after before).follows_run
      (hplains operation hmem) hfind hcurrent

/-- What two clients ask for: the second one adds what is there, asks for too much energy, and
destroys the child from which a symbol came. -/
def ledger : List (Client × Operation) :=
  [(.first, .create Snapshot.pairShape), (.second, .createUnder ⟨1⟩ Snapshot.pairShape),
    (.first, .addSymbol ⟨2⟩ "a"), (.second, .addSymbol ⟨2⟩ "a"), (.first, .moveSymbol ⟨2⟩ ⟨1⟩ "a"),
    (.second, .spendEnergy ⟨1⟩ 200), (.first, .spendEnergy ⟨1⟩ 30), (.second, .destroy ⟨2⟩),
    (.first, .fill ⟨1⟩ ⟨0x3F800000⟩)]

/-- The root of `ledger` gets a symbol and is filled, and spends energy once. -/
theorem accounts_ledger :
    (Store.empty .standard 0).changesOf ⟨1⟩ (ledger.map (·.2)) = 2 ∧
      (Store.empty .standard 0).spentBy ⟨1⟩ (ledger.map (·.2)) = 30 ∧
      ∃ membrane, ((ofStore (.empty .standard 0)).serveAll ledger).2.store.membranes.find? ⟨1⟩ =
          some membrane ∧
        membrane.version.toNat = 3 ∧ membrane.operations.toNat = 2 ∧
        membrane.energy.toNat = 70 := by
  have hplain : ∀ request ∈ ledger, request.2.isInstallation = false := by decide
  have hleft : ∀ before, before <+: ledger.map (·.2) →
      ((Store.empty .standard 0).after before).VersionsLeft := by
    have hinits : ∀ before ∈ (ledger.map (·.2)).inits,
        ((Store.empty .standard 0).after before).VersionsLeft := by decide +kernel
    exact fun before hinit => hinits before ((List.mem_inits before _).mpr hinit)
  have hchanges : (Store.empty .standard 0).changesOf ⟨1⟩ (ledger.map (·.2)) = 2 := by
    decide +kernel
  have hspent : (Store.empty .standard 0).spentBy ⟨1⟩ (ledger.map (·.2)) = 30 := by decide +kernel
  have hlive : (((ofStore (.empty .standard 0)).serveAll ledger).2.store.contains ⟨1⟩) =
      true := by decide +kernel
  obtain ⟨membrane, hfind⟩ := contains_iff.mp hlive
  obtain ⟨hbalance, -⟩ := accounts .standard 0 ledger hplain hleft
  obtain ⟨hversion, hoperations, henergy⟩ := hbalance ⟨1⟩ membrane hfind
  rw [hchanges] at hoperations
  rw [hspent] at henergy
  have hinitial : StoreConfig.standard.limits.initialEnergy.toNat = 100 := rfl
  exact ⟨hchanges, hspent, membrane, hfind, by omega, hoperations, by omega⟩

end Store

end Membranes
