import Membranes.Store.Basic

/-!
# Shape, elements and energy of a membrane

Operations on one membrane. Changing its shape or its elements is a mutation: the version goes up by
one and the checksum is computed anew. Spending energy is not. `Store.replaceContent` replaces shape,
elements and version at once, which is how a copy from elsewhere comes in.
-/

namespace Membranes

namespace Membrane

variable (membrane : Membrane)

/-- The membrane under another shape of the same volume. -/
def reshaped (shape : Shape) : Except Refusal Membrane := do
  require (membrane.shape.reshapable shape)
    (.incompatibleShape membrane.shape.volume shape.volume)
  return membrane.withContent shape membrane.buffer

/-- The place of a coordinate in the buffer. -/
def offset (indices : List UInt32) : Except Refusal Nat :=
  match membrane.shape.offset indices with
  | .ok offset => .ok offset
  | .error fault => .error (.index fault)

/-- The element at a coordinate. -/
def element (indices : List UInt32) : Except Refusal Binary32 := do
  return membrane.buffer.getD (← membrane.offset indices) .zero

/-- The membrane with another element at a coordinate. -/
def withElement (indices : List UInt32) (value : Binary32) : Except Refusal Membrane := do
  let offset ← membrane.offset indices
  return membrane.withContent membrane.shape (membrane.buffer.setIfInBounds offset value)

/-- The membrane with one value in all its elements. -/
def filled (value : Binary32) : Membrane :=
  membrane.withContent membrane.shape (Array.replicate membrane.buffer.size value)

/-- The membrane with less energy. -/
def spending (amount : UInt32) : Except Refusal Membrane := do
  require (amount ≤ membrane.energy) (.capacity .energy membrane.energy.toUInt64)
  return { membrane with energy := membrane.energy - amount }

end Membrane

namespace Store

variable (store : Store)

/-- Gives the buffer of a membrane another shape of the same volume. -/
def reshape (id : MembraneId) (shape : Shape) : Outcome Unit :=
  store.checking (store.membrane id) fun _ =>
    store.checking (store.checkShape shape) fun _ =>
      store.update id fun membrane => return ((), ← membrane.reshaped shape)

/-- Spends energy of a membrane and answers what is left. -/
def spendEnergy (id : MembraneId) (amount : UInt32) : Outcome UInt32 :=
  store.update id fun membrane => do
    let membrane ← membrane.spending amount
    return (membrane.energy, membrane)

/-- Whether a buffer fills a shape that a membrane may take. -/
def checkContent (shape : Shape) (buffer : Array Binary32) : Except Refusal Unit := do
  store.checkShape shape
  require (buffer.size = shape.volume.toNat) (.shape (.wrongLength buffer.size shape))

/-- Replaces shape, elements and version of a membrane. -/
def replaceContent (id : MembraneId) (shape : Shape) (buffer : Array Binary32) (version : UInt64) :
    Outcome Unit :=
  store.checking (store.checkContent shape buffer) fun _ =>
    store.update id fun membrane =>
      .ok ((), { membrane.withContent shape buffer with version })

/-- The element of a membrane at a coordinate. -/
def get (id : MembraneId) (indices : List UInt32) : Except Refusal Binary32 := do
  (← store.membrane id).element indices

/-- Writes the element of a membrane at a coordinate. -/
def set (id : MembraneId) (indices : List UInt32) (value : Binary32) : Outcome Unit :=
  store.update id fun membrane => return ((), ← membrane.withElement indices value)

/-- Writes one value into all elements of a membrane. -/
def fill (id : MembraneId) (value : Binary32) : Outcome Unit :=
  store.update id fun membrane => .ok ((), membrane.filled value)

/-- The elements of a membrane. -/
def buffer (id : MembraneId) : Except Refusal (Array Binary32) :=
  (store.membrane id).map (·.buffer)

end Store

end Membranes
