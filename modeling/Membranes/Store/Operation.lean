import Membranes.Store.Content
import Membranes.Store.Lifecycle
import Membranes.Store.Symbols

/-!
# Operations as values

An `Operation` is a request to a store, and `Operation.run` carries it out. A list of operations is a
run of the store: `Store.after` is the store behind it and `Store.answers` what was answered on the way.
-/

namespace Membranes

/-- A request to a store. -/
inductive Operation where
  /-- Create a root. -/
  | create (shape : Shape)
  /-- Create a membrane under an owner. -/
  | createUnder (owner : MembraneId) (shape : Shape)
  /-- Destroy a membrane with everything below it. -/
  | destroy (id : MembraneId)
  /-- Give a buffer another shape of the same volume. -/
  | reshape (id : MembraneId) (shape : Shape)
  /-- Spend energy. -/
  | spendEnergy (id : MembraneId) (amount : UInt32)
  /-- Replace shape, elements and version. -/
  | replaceContent (id : MembraneId) (shape : Shape) (buffer : Array Binary32) (version : UInt64)
  /-- Read an element. -/
  | get (id : MembraneId) (indices : List UInt32)
  /-- Write an element. -/
  | set (id : MembraneId) (indices : List UInt32) (value : Binary32)
  /-- Write all elements. -/
  | fill (id : MembraneId) (value : Binary32)
  /-- Add a symbol. -/
  | addSymbol (id : MembraneId) (symbol : String)
  /-- Remove a symbol. -/
  | removeSymbol (id : MembraneId) (symbol : String)
  /-- Ask whether a symbol is there. -/
  | holdsSymbol (id : MembraneId) (symbol : String)
  /-- List the symbols. -/
  | symbols (id : MembraneId)
  /-- Move a symbol. -/
  | moveSymbol (source target : MembraneId) (symbol : String)
deriving DecidableEq

/-- The answer to a successful operation. -/
inductive Reply where
  /-- The operation has nothing to tell. -/
  | done
  /-- A membrane was created. -/
  | created (id : MembraneId)
  /-- Membranes were destroyed, in this order. -/
  | released (ids : List MembraneId)
  /-- The energy that is left. -/
  | energy (left : UInt32)
  /-- An element. -/
  | element (value : Binary32)
  /-- Whether something is there. -/
  | found (present : Bool)
  /-- Symbols in the order in which they came. -/
  | symbols (held : List String)
deriving DecidableEq

/-- The outcome with its answer turned into a reply. -/
def Outcome.reply {α : Type} (toReply : α → Reply) (outcome : Outcome α) : Outcome Reply :=
  ⟨outcome.answer.map toReply, outcome.store⟩

namespace Operation

/-- Carries out an operation. -/
def run (store : Store) : Operation → Outcome Reply
  | create shape => (store.create shape).reply .created
  | createUnder owner shape => (store.createUnder owner shape).reply .created
  | destroy id => (store.destroy id).reply .released
  | reshape id shape => (store.reshape id shape).reply fun _ => .done
  | spendEnergy id amount => (store.spendEnergy id amount).reply .energy
  | replaceContent id shape buffer version =>
    (store.replaceContent id shape buffer version).reply fun _ => .done
  | get id indices => ⟨(store.get id indices).map .element, store⟩
  | set id indices value => (store.set id indices value).reply fun _ => .done
  | fill id value => (store.fill id value).reply fun _ => .done
  | addSymbol id symbol => (store.addSymbol id symbol).reply fun _ => .done
  | removeSymbol id symbol => (store.removeSymbol id symbol).reply fun _ => .done
  | holdsSymbol id symbol => ⟨(store.holdsSymbol id symbol).map .found, store⟩
  | symbols id => ⟨(store.symbols id).map .symbols, store⟩
  | moveSymbol source target symbol =>
    (store.moveSymbol source target symbol).reply fun _ => .done

end Operation

namespace Store

/-- The store behind a run, whatever was answered on the way. -/
def after (store : Store) (operations : List Operation) : Store :=
  operations.foldl (fun store operation => (operation.run store).store) store

/-- The answers of a run in order. -/
def answers (store : Store) : List Operation → List (Except Refusal Reply)
  | [] => []
  | operation :: operations =>
    let outcome := operation.run store
    outcome.answer :: outcome.store.answers operations

end Store

end Membranes
