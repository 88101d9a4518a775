import Membranes.Block
import Membranes.Binary.Basic

/-!
# The seeded number stream

Random buffers come from the key stream of an eight-round ChaCha cipher. A 64-bit seed is stretched into
the key; after that the stream is one fixed sequence of words, and a store remembers only how many of
them it has used. Each element takes one word: its upper 24 bits, scaled.
-/

namespace Membranes

/-- A position in a key stream. -/
structure KeyStream where
  /-- The eight words of the key. -/
  key : List UInt32
  /-- How many words are used up. -/
  position : Nat
deriving DecidableEq, Repr

namespace KeyStream

/-! ### Seeds -/

/-- The multiplier of the generator that stretches a seed. -/
def seedFactor : UInt64 := 6364136223846793005

/-- The increment of the generator that stretches a seed. -/
def seedIncrement : UInt64 := 11634580027462260723

/-- The word that a generator state gives. -/
def seedWord (state : UInt64) : UInt32 :=
  let mixed := (((state >>> 18) ^^^ state) >>> 27).toUInt32
  let count := (state >>> 59).toUInt32
  if count = 0 then mixed else rotateRight mixed count

/-- A number of words drawn from a generator state. -/
def stretch : Nat → UInt64 → List UInt32
  | 0, _ => []
  | n + 1, state =>
    let next := state * seedFactor + seedIncrement
    seedWord next :: stretch n next

/-- The beginning of the stream of a seed. -/
def ofSeed (seed : UInt64) : KeyStream := ⟨stretch 8 seed, 0⟩

/-! ### Blocks -/

/-- Stirs four words of the state. -/
@[inline] def quarterRound (a b c d : UInt32) : UInt32 × UInt32 × UInt32 × UInt32 :=
  let a := a + b
  let d := rotateRight (d ^^^ a) 16
  let c := c + d
  let b := rotateRight (b ^^^ c) 20
  let a := a + b
  let d := rotateRight (d ^^^ a) 24
  let c := c + d
  let b := rotateRight (b ^^^ c) 25
  (a, b, c, d)

/-- Two rounds: the columns, then the diagonals. -/
def doubleRound (v : Block) : Block :=
  let (a0, b0, c0, d0) := quarterRound v.w0 v.w4 v.w8 v.w12
  let (a1, b1, c1, d1) := quarterRound v.w1 v.w5 v.w9 v.w13
  let (a2, b2, c2, d2) := quarterRound v.w2 v.w6 v.w10 v.w14
  let (a3, b3, c3, d3) := quarterRound v.w3 v.w7 v.w11 v.w15
  let (a0, b1, c2, d3) := quarterRound a0 b1 c2 d3
  let (a1, b2, c3, d0) := quarterRound a1 b2 c3 d0
  let (a2, b3, c0, d1) := quarterRound a2 b3 c0 d1
  let (a3, b0, c1, d2) := quarterRound a3 b0 c1 d2
  ⟨a0, a1, a2, a3, b0, b1, b2, b3, c0, c1, c2, c3, d0, d1, d2, d3⟩

/-- The block of the key stream with a number. -/
def block (key : List UInt32) (number : UInt64) : Block :=
  let start := Block.ofFn fun place =>
    if place = 0 then 0x61707865
    else if place = 1 then 0x3320646E
    else if place = 2 then 0x79622D32
    else if place = 3 then 0x6B206574
    else if place < 12 then key.getD (place - 4) 0
    else if place = 12 then number.toUInt32
    else if place = 13 then (number >>> 32).toUInt32
    else 0
  (doubleRound (doubleRound (doubleRound (doubleRound start)))).add start

/-- The word of the key stream at a position. -/
def wordAt (key : List UInt32) (position : Nat) : UInt32 :=
  (block key (UInt64.ofNat (position / 16))).toList.getD (position % 16) 0

/-! ### Elements -/

/-- A word as a number from zero up to the scale: its upper 24 bits over `2 ^ 24`, times the scale, rounded.
A tiny scale can be reached by rounding. -/
def scaled (scale : Binary32) (word : UInt32) : Binary32 :=
  (Binary32.ofTwentyFourBits (word >>> 8).toNat).mul scale

/-- The next elements of a stream, and the stream behind them. -/
def draw (stream : KeyStream) (scale : Binary32) (count : Nat) : Array Binary32 × KeyStream :=
  (Array.ofFn fun i : Fin count => scaled scale (wordAt stream.key (stream.position + i)),
   { stream with position := stream.position + count })

end KeyStream

end Membranes
