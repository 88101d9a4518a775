import Membranes.Proofs.Snapshot.Merge
import Membranes.Proofs.Store.Footprint
import Membranes.Store.Shared

/-!
# Clients of one handle

* `SharedStore.serve` and `SharedStore.serveAll`: the requests that clients send through one handle,
  in the order in which they get the lock, with the answers for each of them. Between two requests
  the lock is free, so the handle goes through the stores of a run (`serve_ofStore`,
  `serveAll_ofStore`).
* `clients_independent`: of two clients that name different membranes, each is served as if the
  other one had not been there before it was done.
-/

namespace Membranes

/-- What belongs to one of those by whom a list is labelled. -/
def ownOf {κ α : Type} [DecidableEq κ] (client : κ) (entries : List (κ × α)) : List α :=
  (entries.filter fun entry => entry.1 = client).map (·.2)

section ownOf

variable {κ α : Type} [DecidableEq κ] {client : κ}

@[simp]
theorem ownOf_cons (client other : κ) (value : α) (entries : List (κ × α)) :
    ownOf client ((other, value) :: entries) =
      if other = client then value :: ownOf client entries else ownOf client entries := by
  unfold ownOf
  by_cases h : other = client <;> simp [h]

theorem mem_ownOf_iff {value : α} {entries : List (κ × α)} :
    value ∈ ownOf client entries ↔ (client, value) ∈ entries := by
  unfold ownOf
  simp

theorem mem_ownOf_cons {value : α} {entries : List (κ × α)} (h : value ∈ ownOf client entries)
    (entry : κ × α) : value ∈ ownOf client (entry :: entries) :=
  mem_ownOf_iff.mpr (List.mem_cons_of_mem _ (mem_ownOf_iff.mp h))

end ownOf

namespace SharedStore

variable {κ : Type}

/-- Carries out a request through the handle. What only asks reads and leaves the handle as it is;
all else takes the lock for writing. -/
def serve (shared : SharedStore) : Operation → Except Refusal Reply × SharedStore
  | .get id indices => (shared.read fun store => (store.get id indices).map .element, shared)
  | .holdsSymbol id symbol =>
    (shared.read fun store => (store.holdsSymbol id symbol).map .found, shared)
  | .symbols id => (shared.read fun store => (store.symbols id).map .symbols, shared)
  | operation => shared.write operation.run

/-- Carries out the requests of clients in the order in which they get the lock. -/
def serveAll (shared : SharedStore) :
    List (κ × Operation) → List (κ × Except Refusal Reply) × SharedStore
  | [] => ([], shared)
  | (client, operation) :: requests =>
    let (answer, shared) := shared.serve operation
    let (answers, shared) := shared.serveAll requests
    ((client, answer) :: answers, shared)

/-- A request finds the lock free and leaves it free. -/
theorem serve_ofStore (store : Store) (operation : Operation) :
    (ofStore store).serve operation =
      ((operation.run store).answer, ofStore (operation.run store).store) := by
  cases operation <;> rfl

theorem serveAll_cons (store : Store) (client : κ) (operation : Operation)
    (requests : List (κ × Operation)) :
    (ofStore store).serveAll ((client, operation) :: requests) =
      ((client, (operation.run store).answer) ::
          ((ofStore (operation.run store).store).serveAll requests).1,
        ((ofStore (operation.run store).store).serveAll requests).2) := by
  show (let (answer, shared) := (ofStore store).serve operation
    let (answers, shared) := shared.serveAll requests
    ((client, answer) :: answers, shared)) = _
  rw [serve_ofStore]

/-- Through the handle the store goes through the run of all requests. -/
theorem serveAll_ofStore (store : Store) (requests : List (κ × Operation)) :
    (ofStore store).serveAll requests =
      ((requests.map (·.1)).zip (store.answers (requests.map (·.2))),
        ofStore (store.after (requests.map (·.2)))) := by
  induction requests generalizing store with
  | nil => rfl
  | cons request requests ih =>
    obtain ⟨client, operation⟩ := request
    rw [serveAll_cons, ih]
    rfl

end SharedStore

/-- One of two clients. -/
inductive Client where
  | first
  | second
deriving DecidableEq

namespace Store

open SharedStore Operation

/-- A request that names nothing of a run can be carried out before it or behind it. -/
theorem run_comm_after {operation : Operation} {operations : List Operation} (store : Store)
    (hplain : operation.isStructural = false)
    (hplains : ∀ other ∈ operations, other.isStructural = false)
    (hapart : ∀ other ∈ operations, ∀ id ∈ other.named, id ∉ operation.named) :
    (operation.run (store.after operations)).answer = (operation.run store).answer ∧
      (operation.run store).store.answers operations = store.answers operations ∧
      (operation.run (store.after operations)).store =
        (operation.run store).store.after operations := by
  have hdisjoint : (operations.flatMap named).Disjoint operation.named := by
    intro id hmem hown
    obtain ⟨other, hother, hnamed⟩ := List.mem_flatMap.mp hmem
    exact hapart other hother id hnamed hown
  obtain ⟨hanswer, hanswers, hstore⟩ :=
    (within_run operations hplains).comm (operation.within hplain) hdisjoint store
  exact ⟨hanswer, Except.ok.inj hanswers, hstore⟩

/-- **Clients of different membranes do not disturb each other.** However the requests of two
clients alternate, if no membrane is named by both and none is created or destroyed, they leave the
store that is left when the first client is done before the second one begins, and every request is
answered, or refused, as it is then. -/
theorem clients_independent (store : Store) (requests : List (Client × Operation))
    (hplain : ∀ request ∈ requests, request.2.isStructural = false)
    (hapart : ∀ operation ∈ ownOf .first requests, ∀ other ∈ ownOf .second requests,
      ∀ id ∈ operation.named, id ∉ other.named) :
    ((ofStore store).serveAll requests).2 =
        ofStore ((store.after (ownOf .first requests)).after (ownOf .second requests)) ∧
      ownOf .first ((ofStore store).serveAll requests).1 = store.answers (ownOf .first requests) ∧
      ownOf .second ((ofStore store).serveAll requests).1 =
        (store.after (ownOf .first requests)).answers (ownOf .second requests) := by
  induction requests generalizing store with
  | nil => exact ⟨rfl, rfl, rfl⟩
  | cons request requests ih =>
    obtain ⟨client, operation⟩ := request
    obtain ⟨hnow, hlater⟩ := List.forall_mem_cons.mp hplain
    obtain ⟨hshared, hfirst, hsecond⟩ := ih (operation.run store).store hlater
      fun mine hmine yours hyours =>
        hapart mine (mem_ownOf_cons hmine _) yours (mem_ownOf_cons hyours _)
    rw [serveAll_cons]
    cases client with
    | first =>
      simp only [ownOf_cons, if_true, reduceCtorEq, if_false]
      refine ⟨hshared, ?_, hsecond⟩
      rw [hfirst]
      rfl
    | second =>
      -- What the second client asks for now is asked behind all that the first one asks for.
      have hmine : operation ∈ ownOf .second ((Client.second, operation) :: requests) :=
        mem_ownOf_iff.mpr List.mem_cons_self
      obtain ⟨hanswer, hanswers, hstore⟩ := store.run_comm_after hnow
        (fun other hother => hlater _ (mem_ownOf_iff.mp hother))
        fun other hother => hapart other (mem_ownOf_cons hother _) operation hmine
      simp only [ownOf_cons, if_true, reduceCtorEq, if_false]
      refine ⟨?_, ?_, ?_⟩
      · rw [hshared, ← hstore]
        rfl
      · rw [hfirst, hanswers]
      · rw [hsecond, ← hstore, ← hanswer]
        rfl

/-- A store with three membranes. -/
def trio : Store :=
  (Store.empty .standard 0).after
    [.create Snapshot.pairShape, .create Snapshot.pairShape, .create Snapshot.pairShape]

/-- While the first client moves a symbol between two membranes, the second one works on a third,
and asks for too much of it. -/
theorem clients_independent_trio :
    let requests : List (Client × Operation) :=
      [(.second, .addSymbol ⟨3⟩ "a"), (.first, .addSymbol ⟨1⟩ "a"), (.second, .spendEnergy ⟨3⟩ 200),
        (.first, .moveSymbol ⟨1⟩ ⟨2⟩ "a"), (.second, .fill ⟨3⟩ ⟨0x3F800000⟩),
        (.first, .symbols ⟨2⟩)]
    (∀ request ∈ requests, request.2.isStructural = false) ∧
      ((ofStore trio).serveAll requests).2 = ofStore (trio.after
        [.addSymbol ⟨1⟩ "a", .moveSymbol ⟨1⟩ ⟨2⟩ "a", .symbols ⟨2⟩, .addSymbol ⟨3⟩ "a",
          .spendEnergy ⟨3⟩ 200, .fill ⟨3⟩ ⟨0x3F800000⟩]) ∧
      ownOf .first ((ofStore trio).serveAll requests).1 =
        [.ok .done, .ok .done, .ok (.symbols ["a"])] ∧
      ownOf .second ((ofStore trio).serveAll requests).1 =
        [.ok .done, .error (.capacity .energy 100), .ok .done] := by
  intro requests
  have hplain : ∀ request ∈ requests, request.2.isStructural = false := by decide
  obtain ⟨hshared, hfirst, hsecond⟩ := clients_independent trio requests hplain (by decide)
  refine ⟨hplain, hshared, hfirst.trans ?_, hsecond.trans ?_⟩
  · decide +kernel
  · decide +kernel

end Store

end Membranes
