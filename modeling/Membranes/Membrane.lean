import Membranes.Checksum
import Membranes.Refusal

/-!
# Membranes

A membrane is a shaped buffer together with a set of symbols and a place in an ownership forest. Its
version counts the mutations since it was created, starting from one; the checksum belongs to the shape
and the buffer that it has now. Parent and children are identifiers, to be looked up in the store that
owns the membrane.
-/

namespace Membranes

/-- A membrane of a store. -/
structure Membrane where
  /-- The identifier under which the store keeps the membrane. -/
  id : MembraneId
  /-- The shape of the buffer. -/
  shape : Shape
  /-- The elements in flat row-major order. -/
  buffer : Array Binary32
  /-- One more than the number of mutations, unless content with another version was installed. -/
  version : UInt64
  /-- The checksum of shape and buffer. -/
  checksum : UInt32
  /-- The energy that is left. -/
  energy : UInt32
  /-- The symbols, each once, in the order in which they came. -/
  symbols : List String
  /-- The owner; a root has none. -/
  parent : Option MembraneId
  /-- The membranes owned, in the order of their creation. -/
  children : List MembraneId
  /-- The number of mutations since the creation. -/
  operations : UInt64
deriving DecidableEq

namespace Membrane

/-- A membrane as it is created: without symbols and children, at version one. -/
def fresh (id : MembraneId) (shape : Shape) (buffer : Array Binary32) (energy : UInt32)
    (parent : Option MembraneId) : Membrane where
  id
  shape
  buffer
  version := 1
  checksum := checksumOf shape buffer
  energy
  symbols := []
  parent
  children := []
  operations := 0

variable (membrane : Membrane)

/-- Whether nothing owns the membrane. -/
def isRoot : Bool := membrane.parent.isNone

/-- Whether the membrane holds a symbol. -/
def holds (symbol : String) : Bool := membrane.symbols.contains symbol

/-- How often the membrane holds a symbol; symbols do not repeat. -/
def multiplicity (symbol : String) : Nat := if membrane.holds symbol then 1 else 0

/-! ### Mutations -/

/-- The membrane after a mutation that its checksum does not depend on. -/
def mutated : Membrane :=
  { membrane with version := membrane.version + 1, operations := membrane.operations + 1 }

/-- The membrane with another shape and buffer, which is a mutation. -/
def withContent (shape : Shape) (buffer : Array Binary32) : Membrane :=
  { membrane with shape, buffer, checksum := checksumOf shape buffer }.mutated

/-- The membrane with a symbol behind the ones it holds. -/
def withSymbol (symbol : String) : Membrane :=
  { membrane with symbols := membrane.symbols ++ [symbol] }.mutated

/-- The membrane without a symbol. -/
def withoutSymbol (symbol : String) : Membrane :=
  { membrane with symbols := membrane.symbols.erase symbol }.mutated

end Membrane

end Membranes
