import Membranes.Config.Basic
import Membranes.IdMap
import Membranes.KeyStream
import Membranes.Membrane

/-!
# Stores

A store owns a forest of membranes. It hands out identifiers from a counter that never goes back, and
fills new buffers from a stream of numbers that it continues from one membrane to the next.

Every operation returns an `Outcome`: an answer or a refusal, and in both cases the store that is there
afterwards. `Outcome.andThen` continues an operation after a success and ends it at the first refusal.
-/

namespace Membranes

/-- Membranes and the state from which further ones are made. -/
structure Store where
  /-- Limits and the filling of new buffers. -/
  config : StoreConfig
  /-- The live membranes. -/
  membranes : IdMap Membrane
  /-- The membranes without an owner, in the order of their creation. -/
  roots : List MembraneId
  /-- The number of the next membrane. -/
  nextId : UInt32
  /-- Where the numbers for random buffers come from. -/
  draws : KeyStream
deriving DecidableEq

/-- What an operation leaves behind. -/
structure Outcome (α : Type) where
  /-- The answer, or the reason why there is none. -/
  answer : Except Refusal α
  /-- The store afterwards. -/
  store : Store

namespace Outcome

variable {α β : Type}

/-- Goes on with the answer and the store of a successful operation. -/
def andThen (outcome : Outcome α) (next : α → Store → Outcome β) : Outcome β :=
  match outcome.answer with
  | .ok answer => next answer outcome.store
  | .error refusal => ⟨.error refusal, outcome.store⟩

end Outcome

namespace Store

/-- An operation that begins with a check: its result is passed on, and if it is a refusal, the store
stays as it is. -/
def checking {α β : Type} (store : Store) (check : Except Refusal α) (next : α → Outcome β) :
    Outcome β :=
  match check with
  | .ok result => next result
  | .error refusal => ⟨.error refusal, store⟩

/-- A store without membranes. The stream of a configuration without a seed starts from `entropy`. -/
def empty (config : StoreConfig) (entropy : UInt64) : Store where
  config
  membranes := .empty
  roots := []
  nextId := 1
  draws := .ofSeed <|
    match config.filling with
    | .random _ (some seed) => seed
    | _ => entropy

variable (store : Store)

/-! ### Looking up -/

/-- The membrane with an identifier. -/
def membrane (id : MembraneId) : Except Refusal Membrane :=
  match store.membranes.find? id with
  | some membrane => .ok membrane
  | none => .error (.membraneNotFound id)

/-- Whether a membrane is live. -/
def contains (id : MembraneId) : Bool := store.membranes.contains id

/-- The number of live membranes. -/
def size : Nat := store.membranes.size

/-- The live membranes in the order of their creation. -/
def ids : List MembraneId := store.membranes.ids

/-- The children of a membrane. -/
def children (id : MembraneId) : Except Refusal (List MembraneId) :=
  (store.membrane id).map (·.children)

/-- The owner of a membrane, which a root does not have. -/
def parent (id : MembraneId) : Except Refusal (Option MembraneId) :=
  (store.membrane id).map (·.parent)

/-- Counts the steps from an owner up to its root, beginning at `depth`. A chain of owners has at most
as many members as there are membranes. -/
def depthFrom : Nat → UInt32 → Option MembraneId → Except Refusal UInt32
  | _, depth, none => .ok depth
  | 0, depth, some _ => .ok depth
  | fuel + 1, depth, some owner => do depthFrom fuel (depth + 1) (← store.membrane owner).parent

/-- The nesting depth of a membrane; roots are at depth one. -/
def depth (id : MembraneId) : Except Refusal UInt32 := do
  store.depthFrom store.size 1 (← store.membrane id).parent

/-! ### Storing -/

/-- The store with a membrane under an identifier. -/
def put (id : MembraneId) (membrane : Membrane) : Store :=
  { store with membranes := store.membranes.insert id membrane }

/-- Looks up a membrane and puts back what `change` makes of it, unless that is a refusal. -/
def update {α : Type} (id : MembraneId) (change : Membrane → Except Refusal (α × Membrane)) :
    Outcome α :=
  store.checking (store.membrane id >>= change) fun (answer, membrane) =>
    ⟨.ok answer, store.put id membrane⟩

/-- Whether a shape is one that a membrane of this store may take: it has an axis, not too many of them,
and not too many elements. -/
def checkShape (shape : Shape) : Except Refusal Unit := do
  let limits := store.config.limits
  require (shape.isScalar = false) (.shape .noAxes)
  require (shape.rank ≤ limits.maxAxes.toNat) (.shape (.tooManyAxes shape.rank limits.maxAxes))
  require (shape.volume ≤ limits.maxVolume) (.capacity .volume limits.maxVolume)

end Store

end Membranes
