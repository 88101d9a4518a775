import Membranes.Proofs.Snapshot.Merge

/-!
# Refused operations

* `Store.run_of_error`: a refused operation leaves the store as it was.
* `Store.after_accepted` and `Store.answers_accepted`: so a run may leave out the operations that are
  refused (`Store.accepted`).
-/

namespace Membranes

namespace Store

variable {store : Store}

theorem run_of_error {operation : Operation} {refusal : Refusal}
    (h : (operation.run store).answer = .error refusal) : (operation.run store).store = store := by
  rcases (operation.run_atomically store).cases with ⟨_, hrun⟩ | ⟨reply, after, hrun, -⟩
  · rw [hrun]
  · rw [hrun] at h
    exact nomatch h

/-- The operations of a run that are not refused. -/
def accepted (store : Store) : List Operation → List Operation
  | [] => []
  | operation :: operations =>
    let outcome := operation.run store
    match outcome.answer with
    | .ok _ => operation :: outcome.store.accepted operations
    | .error _ => outcome.store.accepted operations

theorem accepted_of_error {operation : Operation} {refusal : Refusal}
    (h : (operation.run store).answer = .error refusal) (operations : List Operation) :
    store.accepted (operation :: operations) = store.accepted operations := by
  rw [accepted, h, run_of_error h]

theorem accepted_of_ok {operation : Operation} {reply : Reply}
    (h : (operation.run store).answer = .ok reply) (operations : List Operation) :
    store.accepted (operation :: operations) =
      operation :: (operation.run store).store.accepted operations := by
  rw [accepted, h]

theorem after_accepted (store : Store) (operations : List Operation) :
    store.after (store.accepted operations) = store.after operations := by
  induction operations generalizing store with
  | nil => rfl
  | cons operation operations ih =>
    show _ = (operation.run store).store.after operations
    cases hanswer : (operation.run store).answer with
    | ok reply =>
      rw [accepted_of_ok hanswer]
      exact ih (operation.run store).store
    | error refusal => rw [accepted_of_error hanswer, run_of_error hanswer, ih]

theorem answers_accepted (store : Store) (operations : List Operation) :
    store.answers (store.accepted operations) = (store.answers operations).filter (·.isOk) := by
  induction operations generalizing store with
  | nil => rfl
  | cons operation operations ih =>
    have hanswers : store.answers (operation :: operations) =
        (operation.run store).answer :: (operation.run store).store.answers operations := rfl
    cases hanswer : (operation.run store).answer with
    | ok reply =>
      rw [accepted_of_ok hanswer, hanswers, hanswer, List.filter_cons_of_pos rfl, ← ih, ← hanswer]
      rfl
    | error refusal =>
      rw [accepted_of_error hanswer, hanswers, hanswer, List.filter_cons_of_neg Bool.false_ne_true,
        ih, run_of_error hanswer]

/-- **A refused operation changes nothing**, be it refused at the first check or at the last. What a run
leaves behind and what it answers to the other operations are the same without those that are refused. -/
theorem refused_changes_nothing (store : Store) :
    (∀ (operation : Operation) refusal, (operation.run store).answer = .error refusal →
      (operation.run store).store = store) ∧
    ∀ operations, store.after (store.accepted operations) = store.after operations ∧
      store.answers (store.accepted operations) = (store.answers operations).filter (·.isOk) :=
  ⟨fun _ _ => run_of_error, fun operations =>
    ⟨store.after_accepted operations, store.answers_accepted operations⟩⟩

/-- A store for one membrane, and one in it. -/
def crowded : Store :=
  (Store.empty ⟨{ Limits.standard with maxMembranes := 1 }, .random ⟨0x3F800000⟩ (some 7)⟩ 0).after
    [.create Snapshot.pairShape]

/-- The last check refuses a second membrane, with nothing taken from the stream of numbers. -/
theorem refused_changes_nothing_crowded :
    ((Operation.createUnder ⟨1⟩ Snapshot.pairShape).run crowded).answer =
        .error (.capacity .membranes 1) ∧
      ((Operation.createUnder ⟨1⟩ Snapshot.pairShape).run crowded).store = crowded ∧
      crowded.after [.fill ⟨1⟩ .zero] = crowded.after [.destroy ⟨7⟩, .fill ⟨1⟩ .zero] := by
  have hanswer : ((Operation.createUnder ⟨1⟩ Snapshot.pairShape).run crowded).answer =
      .error (.capacity .membranes 1) := by decide +kernel
  obtain ⟨hrefused, hrun⟩ := crowded.refused_changes_nothing
  refine ⟨hanswer, hrefused _ _ hanswer, ?_⟩
  have haccepted : crowded.accepted [.destroy ⟨7⟩, .fill ⟨1⟩ .zero] = [.fill ⟨1⟩ .zero] := by
    decide +kernel
  rw [← (hrun [.destroy ⟨7⟩, .fill ⟨1⟩ .zero]).1, haccepted]

end Store

end Membranes
