import Membranes.Word

/-!
# Blocks of sixteen words

Both the tree hash and the key stream stir a four-by-four grid of 32-bit words, first down its columns
and then along its diagonals. A `Block` is such a grid, row by row.
-/

namespace Membranes

/-- Sixteen 32-bit words. -/
structure Block where
  (w0 w1 w2 w3 w4 w5 w6 w7 w8 w9 w10 w11 w12 w13 w14 w15 : UInt32)
deriving DecidableEq, Repr

namespace Block

/-- The words in order. -/
def toList (b : Block) : List UInt32 :=
  [b.w0, b.w1, b.w2, b.w3, b.w4, b.w5, b.w6, b.w7,
   b.w8, b.w9, b.w10, b.w11, b.w12, b.w13, b.w14, b.w15]

/-- The block whose word at each place is given by a function of the place. -/
@[inline] def ofFn (f : Nat → UInt32) : Block :=
  ⟨f 0, f 1, f 2, f 3, f 4, f 5, f 6, f 7, f 8, f 9, f 10, f 11, f 12, f 13, f 14, f 15⟩

/-- The sum word by word. -/
def add (a b : Block) : Block :=
  ⟨a.w0 + b.w0, a.w1 + b.w1, a.w2 + b.w2, a.w3 + b.w3, a.w4 + b.w4, a.w5 + b.w5, a.w6 + b.w6,
   a.w7 + b.w7, a.w8 + b.w8, a.w9 + b.w9, a.w10 + b.w10, a.w11 + b.w11, a.w12 + b.w12,
   a.w13 + b.w13, a.w14 + b.w14, a.w15 + b.w15⟩

end Block

end Membranes
