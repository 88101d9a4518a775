import Membranes.Proofs.Exchange.Calls
import Membranes.Proofs.Exchange.Capacity
import Membranes.Proofs.Store.Footprint
import Membranes.Store.Rendering

/-!
# Identifiers of membranes that are not live

A request that names a membrane which is not live is refused: the membrane is not found
(`Operation.run_of_missing`), unless a check that comes before all looking up (`Operation.precheck`)
refuses something else. It is the same with everything that can be asked about the membrane, and with
snapshots that are meant for it (`Store.Stale`).
-/

namespace Membranes

namespace Store

variable {store : Store} {id : MembraneId}

theorem find?_of_not_live (h : store.contains id = false) : store.membranes.find? id = none := by
  rw [Option.eq_none_iff_forall_ne_some]
  intro membrane hfind
  exact nomatch h.symm.trans (contains_iff.mpr ⟨membrane, hfind⟩)

theorem membrane_of_not_live (h : store.contains id = false) :
    store.membrane id = .error (.membraneNotFound id) :=
  store.membrane_eq_error_iff.mpr ⟨find?_of_not_live h, rfl⟩

theorem update_of_not_live (h : store.contains id = false) {α : Type}
    (change : Membrane → Except Refusal (α × Membrane)) :
    (store.update id change).answer = .error (.membraneNotFound id) := by
  unfold update
  rw [membrane_of_not_live h]
  rfl

/-- A check that comes before the looking up decides first. -/
theorem checking_update_of_not_live (h : store.contains id = false) {α β : Type}
    (check : Except Refusal Unit) (change : Membrane → Except Refusal (α × Membrane)) (reply : α → β) :
    (store.checking check fun _ => store.update id change).answer.map reply =
      (check >>= fun _ => .error (.membraneNotFound id)) := by
  cases check with
  | error refusal => rfl
  | ok checked => exact congrArg (Except.map reply) (update_of_not_live h change)

end Store

/-! ### Requests -/

namespace Operation

/-- What a request checks before it looks up any membrane. -/
def precheck (store : Store) : Operation → Except Refusal Unit
  | replaceContent _ shape buffer _ => store.checkContent shape buffer
  | addSymbol _ symbol | moveSymbol _ _ symbol => checkSymbol symbol
  | _ => .ok ()

/-- The first membrane that a request names and that is not live. -/
def missing? (store : Store) (operation : Operation) : Option MembraneId :=
  operation.named.find? fun id => !store.contains id

variable {store : Store} {operation : Operation} {id gone : MembraneId}

theorem missing?_singleton (h : operation.named = [id]) (hgone : operation.missing? store = some gone) :
    gone = id ∧ store.contains id = false := by
  unfold missing? at hgone
  rw [h, List.find?_singleton] at hgone
  split at hgone
  · rename_i hdead
    rw [Bool.not_eq_eq_eq_not, Bool.not_true] at hdead
    exact ⟨(Option.some.inj hgone).symm, hdead⟩
  · exact nomatch hgone

theorem exists_missing (hnamed : id ∈ operation.named) (hdead : store.contains id = false) :
    ∃ gone, operation.missing? store = some gone := by
  unfold missing?
  rw [← Option.isSome_iff_exists, List.find?_isSome]
  exact ⟨id, hnamed, by rw [hdead]; rfl⟩

theorem checkMove_of_missing {source target : MembraneId} {symbol : String}
    (h : (moveSymbol source target symbol).missing? store = some gone) :
    store.checkMove source target symbol =
      (checkSymbol symbol >>= fun _ => .error (.membraneNotFound gone)) := by
  unfold missing? named at h
  unfold Store.checkMove
  congr 1
  funext _
  -- The source is looked up first.
  cases hsource : store.contains source with
  | false =>
    rw [List.find?_cons_of_pos (by rw [hsource]; rfl)] at h
    obtain rfl := Option.some.inj h
    rw [Store.membrane_of_not_live hsource]
    rfl
  | true =>
    obtain ⟨giver, hgiver⟩ := Store.contains_iff.mp hsource
    rw [List.find?_cons_of_neg (by rw [hsource]; exact Bool.false_ne_true)] at h
    have hsymbols : (Operation.symbols target).missing? store = some gone := h
    obtain ⟨rfl, htarget⟩ := missing?_singleton rfl hsymbols
    rw [Store.membrane_of_find? hgiver, Store.membrane_of_not_live htarget]
    rfl

/-- **A request that names a membrane which is not live finds it missing,** unless a check that comes
first refuses the request. -/
theorem run_of_missing (h : operation.missing? store = some gone) :
    (operation.run store).answer =
      (operation.precheck store >>= fun _ => .error (.membraneNotFound gone)) := by
  cases operation with
  | create => exact nomatch h
  | createUnder owner shape =>
    obtain ⟨rfl, hdead⟩ := missing?_singleton rfl h
    show (store.checking (store.checkOwner gone) _).answer.map _ = _
    unfold Store.checkOwner
    rw [Store.membrane_of_not_live hdead]
    rfl
  | destroy id =>
    obtain ⟨rfl, hdead⟩ := missing?_singleton rfl h
    show (store.checking ((store.membrane gone).map _) _).answer.map _ = _
    rw [Store.membrane_of_not_live hdead]
    rfl
  | reshape id shape =>
    obtain ⟨rfl, hdead⟩ := missing?_singleton rfl h
    show (store.checking (store.membrane gone) _).answer.map _ = _
    rw [Store.membrane_of_not_live hdead]
    rfl
  | replaceContent id | addSymbol id =>
    obtain ⟨rfl, hdead⟩ := missing?_singleton rfl h
    exact Store.checking_update_of_not_live hdead _ _ _
  | moveSymbol source target symbol =>
    show (store.checking (store.checkMove source target symbol) _).answer.map _ =
      (checkSymbol symbol >>= _)
    rw [checkMove_of_missing h]
    cases checkSymbol symbol <;> rfl
  | spendEnergy id | set id | fill id | removeSymbol id =>
    obtain ⟨rfl, hdead⟩ := missing?_singleton rfl h
    exact congrArg (Except.map _) (Store.update_of_not_live hdead _)
  | get id indices =>
    obtain ⟨rfl, hdead⟩ := missing?_singleton rfl h
    show (store.membrane gone >>= _).map _ = _
    rw [Store.membrane_of_not_live hdead]
    rfl
  | holdsSymbol id | symbols id =>
    obtain ⟨rfl, hdead⟩ := missing?_singleton rfl h
    show ((store.membrane gone).map _).map _ = _
    rw [Store.membrane_of_not_live hdead]
    rfl

/-- What a request names that is carried out is live. -/
theorem live_of_run {reply : Reply} (h : (operation.run store).answer = .ok reply)
    (hnamed : id ∈ operation.named) : store.contains id = true := by
  cases hlive : store.contains id with
  | true => rfl
  | false =>
    obtain ⟨gone, hgone⟩ := exists_missing hnamed hlive
    rw [run_of_missing hgone] at h
    obtain ⟨_, -, herror⟩ := bind_eq_ok_iff.mp h
    exact nomatch herror

end Operation

/-! ### Everything that names a membrane -/

namespace Store

/-- Nothing that names the membrane gets at any membrane. -/
structure Stale (store : Store) (id : MembraneId) : Prop where
  /-- Requests find it missing, or what they name before it, unless a check that comes first refuses
  them. -/
  run : ∀ operation : Operation, id ∈ operation.named → ∃ gone, operation.missing? store = some gone ∧
    (operation.run store).answer =
      (operation.precheck store >>= fun _ => .error (.membraneNotFound gone))
  /-- Snapshots that are meant for it find it missing, unless they are damaged. -/
  delivery : ∀ {σ : Type} [Outbound σ] (engine : Engine σ) (call : Call) remote strategy,
    call.delivery? = some (id, remote, strategy) → (engine.call store call).1 = .received
      (match remote.verify with
        | .ok () => .error (.refused (.membraneNotFound id))
        | .error fault => .error (.corrupt remote.id fault))
  publish : ∀ {σ : Type} [Outbound σ] (engine : Engine σ),
    engine.publish store id = (.error (.refused (.membraneNotFound id)), engine)
  membrane : store.membrane id = .error (.membraneNotFound id)
  children : store.children id = .error (.membraneNotFound id)
  parent : store.parent id = .error (.membraneNotFound id)
  depth : store.depth id = .error (.membraneNotFound id)
  buffer : store.buffer id = .error (.membraneNotFound id)
  snapshot : store.snapshot id = .error (.membraneNotFound id)
  subtreeText : store.subtreeText id = .error (.membraneNotFound id)
  stamp : (SharedStore.ofStore store).stamp id = .error (.membraneNotFound id)

variable {store : Store} {id : MembraneId}

theorem stale_of_not_live (h : store.contains id = false) : store.Stale id := by
  have hmembrane := membrane_of_not_live h
  have hsnapshot := snapshot_of_not_live (find?_of_not_live h)
  refine
    { run := ?_
      delivery := ?_
      publish := ?_
      membrane := hmembrane
      children := by unfold children; rw [hmembrane]; rfl
      parent := by unfold parent; rw [hmembrane]; rfl
      depth := by unfold depth; rw [hmembrane]; rfl
      buffer := by unfold buffer; rw [hmembrane]; rfl
      snapshot := hsnapshot
      subtreeText := by unfold subtreeText renderStack; rw [hmembrane]; rfl
      stamp := ?_ }
  · intro operation hnamed
    obtain ⟨gone, hgone⟩ := Operation.exists_missing hnamed h
    exact ⟨gone, hgone, Operation.run_of_missing hgone⟩
  · intro σ _ engine call remote strategy hdelivery
    rw [engine.call_of_delivery store hdelivery]
    cases hverify : remote.verify with
    | ok verified =>
      exact congrArg Answer.received
        (Engine.receiveWith_of_not_live engine hverify (find?_of_not_live h))
    | error fault =>
      dsimp only
      unfold Engine.receiveWith Engine.absorb
      rw [hverify]
  · intro σ _ engine
    unfold Engine.publish
    rw [hsnapshot]
  · show (store.membrane id).map _ = _
    rw [hmembrane]
    rfl

end Store

end Membranes
