import Membranes.Shape.Basic

/-!
# Flat offsets

`Shape.offset` is the place of a coordinate in the flat row-major buffer of a shape: the sum of
each index times the stride of its axis. Coordinates are checked from the first axis on, and the first
index that does not lie below its axis size is the one reported.
-/

namespace Membranes

/-- Why a list of indices is not a coordinate of a shape. -/
inductive IndexFault where
  /-- The number of indices is not the number of axes. -/
  | wrongRank (expected actual : Nat)
  /-- An index is not below the size of its axis. -/
  | outOfBounds (axis : Nat) (index bound : UInt32)
deriving DecidableEq, Repr

/-- The wording of an index fault. -/
def IndexFault.message : IndexFault → String
  | .wrongRank expected actual =>
    s!"Index out of bounds: expected {expected} indices, got {actual}"
  | .outOfBounds axis index bound =>
    s!"Index out of bounds: index {index} on axis {axis} (size {bound})"

namespace Shape

/-- Adds to `offset` what the indices from `axis` on contribute, one size and one stride for each. -/
def offsetFrom (axis : Nat) (offset : UInt64) :
    List UInt32 → List UInt32 → List UInt64 → Except IndexFault UInt64
  | index :: indices, bound :: bounds, stride :: strides =>
    if bound ≤ index then .error (.outOfBounds axis index bound)
    else offsetFrom (axis + 1) (offset + index.toUInt64 * stride) indices bounds strides
  | _, _, _ => .ok offset

/-- The place of a coordinate in the flat buffer. -/
def offset (shape : Shape) (indices : List UInt32) : Except IndexFault Nat :=
  if indices.length ≠ shape.rank then .error (.wrongRank shape.rank indices.length)
  else (offsetFrom 0 0 indices shape.axes shape.strides).map UInt64.toNat

end Shape

end Membranes
