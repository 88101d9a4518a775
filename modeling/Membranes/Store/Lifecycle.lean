import Membranes.Store.Basic

/-!
# Creating and destroying membranes

A membrane is created as a root or under an owner, and destroyed together with everything it owns. The
subtree is walked with an explicit stack, so that deep nesting costs no call depth: `Store.walk` enters
a membrane, then its children, and leaves it when all of them are left.
-/

namespace Membranes

namespace Store

variable (store : Store)

/-! ### Creation -/

/-- The buffer of a new membrane, and the stream of numbers behind it. -/
def freshBuffer (count : Nat) : Array Binary32 × KeyStream :=
  match store.config.filling with
  | .zeros => (Array.replicate count .zero, store.draws)
  | .random scale _ => store.draws.draw scale count

/-- What stands against a new membrane of a shape, wherever it is placed: the shape itself, the number
of membranes, or that the counter is used up. -/
def checkRoom (shape : Shape) : Except Refusal Unit := do
  let limit := store.config.limits.maxMembranes
  store.checkShape shape
  require (store.size < limit.toNat) (.capacity .membranes limit.toUInt64)
  require (store.nextId.toNat + 1 < UInt32.size) (.capacity .membranes 0xFFFFFFFF)

/-- Makes a membrane under the next identifier, without entering it at its owner. -/
def allocate (shape : Shape) (parent : Option MembraneId) : Outcome MembraneId :=
  store.checking (store.checkRoom shape) fun _ =>
    let id : MembraneId := ⟨store.nextId⟩
    let (buffer, draws) := store.freshBuffer shape.volume.toNat
    let membrane := Membrane.fresh id shape buffer store.config.limits.initialEnergy parent
    ⟨.ok id, { store.put id membrane with nextId := store.nextId + 1, draws }⟩

/-- Creates a root. -/
def create (shape : Shape) : Outcome MembraneId :=
  (store.allocate shape none).andThen fun id store =>
    ⟨.ok id, { store with roots := store.roots ++ [id] }⟩

/-- Whether a membrane may have one more child. -/
def checkOwner (owner : MembraneId) : Except Refusal Unit := do
  let limits := store.config.limits
  let membrane ← store.membrane owner
  require (membrane.children.length < limits.maxChildren.toNat)
    (.capacity .children limits.maxChildren.toUInt64)
  let depth ← store.depth owner
  require (depth < limits.maxDepth) (.capacity .depth limits.maxDepth.toUInt64)

/-- Creates a membrane under an owner. -/
def createUnder (owner : MembraneId) (shape : Shape) : Outcome MembraneId :=
  store.checking (store.checkOwner owner) fun _ =>
    (store.allocate shape (some owner)).andThen fun id store =>
      store.update owner fun membrane =>
        .ok (id, { membrane with children := membrane.children ++ [id] })

/-! ### Destruction -/

/-- A step of a walk through a subtree. -/
inductive Visit where
  /-- Visit a membrane and all below it. -/
  | enter (id : MembraneId)
  /-- All below a membrane has been visited. -/
  | leave (id : MembraneId)
deriving DecidableEq, Repr

/-- The children of a membrane, none if it is not live. -/
def childrenOf (id : MembraneId) : List MembraneId :=
  match store.membranes.find? id with
  | some membrane => membrane.children
  | none => []

/-- The membranes left by a walk with the given steps before it, in the order in which they are left. -/
def walk : Nat → List Visit → List MembraneId
  | _, [] => []
  | 0, _ => []
  | fuel + 1, .enter id :: visits =>
    walk fuel ((store.childrenOf id).map .enter ++ .leave id :: visits)
  | fuel + 1, .leave id :: visits => id :: walk fuel visits

/-- Everything below a membrane, owners behind what they own. Each membrane is entered once and left
once. -/
def descendants (id : MembraneId) : List MembraneId :=
  store.walk (2 * store.size) ((store.childrenOf id).map .enter)

/-- The store without the given membranes, which other membranes and the roots may still name. -/
def release (ids : List MembraneId) : Store :=
  { store with membranes := ids.foldl IdMap.erase store.membranes }

/-- The store in which an owner, or the roots, no longer name a membrane. -/
def detach (id : MembraneId) (owner : Option MembraneId) : Store :=
  match owner with
  | none => { store with roots := store.roots.filter (· ≠ id) }
  | some owner =>
    match store.membranes.find? owner with
    | some membrane =>
      store.put owner { membrane with children := membrane.children.filter (· ≠ id) }
    | none => store

/-- Destroys a membrane with everything below it, and answers what was destroyed: owners behind what
they own, the membrane itself last. -/
def destroy (id : MembraneId) : Outcome (List MembraneId) :=
  store.checking (store.parent id) fun owner =>
    let below := store.descendants id
    ⟨.ok (below ++ [id]), ((store.release below).detach id owner).release [id]⟩

end Store

end Membranes
