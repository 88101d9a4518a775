import Membranes.Store.Operation

/-!
# Shared stores

A handle to a store behind a lock. An operation holds the lock for its whole duration, so between two
operations the lock is free and a reader never sees half of a change. `SharedStore.peek?` is what a
reader gets who does not wait.
-/

namespace Membranes

/-- A store and the state of its lock. -/
structure SharedStore where
  /-- The store. -/
  store : Store
  /-- Whether a writer holds the lock. -/
  writing : Bool

namespace SharedStore

variable {α : Type} (shared : SharedStore)

/-- A store whose lock is free. -/
def ofStore (store : Store) : SharedStore := ⟨store, false⟩

/-- Reads the store once the lock is free. -/
def read (f : Store → α) : α := f shared.store

/-- Reads the store if the lock is free. -/
def peek? (f : Store → α) : Option α := if shared.writing then none else some (f shared.store)

/-- Takes the lock for writing. -/
def acquire : SharedStore := { shared with writing := true }

/-- Leaves a store behind and frees the lock. -/
def release (store : Store) : SharedStore := ⟨store, false⟩

/-- Carries out an operation under the lock. -/
def write (operation : Store → Outcome α) : Except Refusal α × SharedStore :=
  let held := shared.acquire
  let outcome := operation held.store
  (outcome.answer, release outcome.store)

/-- The version and the checksum of a membrane at one moment. -/
def stamp (id : MembraneId) : Except Refusal (UInt64 × UInt32) :=
  shared.read fun store =>
    (store.membrane id).map fun membrane => (membrane.version, membrane.checksum)

end SharedStore

end Membranes
