import Membranes.Block

/-!
# BLAKE3

The unkeyed tree hash with a digest of 32 bytes. Bytes are cut into chunks of 1024, chunks into blocks
of 64. A chunk folds its blocks into a chaining value of eight words; chaining values are joined
pairwise along a binary tree whose left part is the largest power of two of chunks that leaves
something on the right. The last compression of the tree carries the root flag and gives the digest.
-/

namespace Membranes.Blake3

/-! ### Compression -/

/-- The eight words a fresh chunk starts from, filled up with zeros. -/
def initial : Block :=
  ⟨0x6A09E667, 0xBB67AE85, 0x3C6EF372, 0xA54FF53A, 0x510E527F, 0x9B05688C, 0x1F83D9AB, 0x5BE0CD19,
   0, 0, 0, 0, 0, 0, 0, 0⟩

/-- Stirs two message words into four words of the state. -/
@[inline] def mix (a b c d x y : UInt32) : UInt32 × UInt32 × UInt32 × UInt32 :=
  let a := a + b + x
  let d := rotateRight (d ^^^ a) 16
  let c := c + d
  let b := rotateRight (b ^^^ c) 12
  let a := a + b + y
  let d := rotateRight (d ^^^ a) 8
  let c := c + d
  let b := rotateRight (b ^^^ c) 7
  (a, b, c, d)

/-- One round: the columns with the first half of the message, the diagonals with the second. -/
def round (m v : Block) : Block :=
  let (a0, b0, c0, d0) := mix v.w0 v.w4 v.w8 v.w12 m.w0 m.w1
  let (a1, b1, c1, d1) := mix v.w1 v.w5 v.w9 v.w13 m.w2 m.w3
  let (a2, b2, c2, d2) := mix v.w2 v.w6 v.w10 v.w14 m.w4 m.w5
  let (a3, b3, c3, d3) := mix v.w3 v.w7 v.w11 v.w15 m.w6 m.w7
  let (a0, b1, c2, d3) := mix a0 b1 c2 d3 m.w8 m.w9
  let (a1, b2, c3, d0) := mix a1 b2 c3 d0 m.w10 m.w11
  let (a2, b3, c0, d1) := mix a2 b3 c0 d1 m.w12 m.w13
  let (a3, b0, c1, d2) := mix a3 b0 c1 d2 m.w14 m.w15
  ⟨a0, a1, a2, a3, b0, b1, b2, b3, c0, c1, c2, c3, d0, d1, d2, d3⟩

/-- The order in which the next round takes the message words. -/
def permute (m : Block) : Block :=
  ⟨m.w2, m.w6, m.w3, m.w10, m.w7, m.w0, m.w4, m.w13,
   m.w1, m.w11, m.w12, m.w5, m.w9, m.w14, m.w15, m.w8⟩

/-- A number of rounds, the message permuted between them. -/
def rounds : Nat → Block → Block → Block
  | 0, _, v => v
  | n + 1, m, v => rounds n (permute m) (round m v)

/-- What one compression works on. Of `chaining` the first eight words count. -/
structure Node where
  /-- The chaining value that enters. -/
  chaining : Block
  /-- The message words. -/
  message : Block
  /-- The number of the chunk. -/
  counter : UInt64
  /-- How many bytes of the message count. -/
  length : UInt32
  /-- The role of the block in its chunk and of the chunk in the tree. -/
  flags : UInt32

/-- Marks the first block of a chunk. -/
def chunkStart : UInt32 := 1

/-- Marks the last block of a chunk. -/
def chunkEnd : UInt32 := 2

/-- Marks a block made of two chaining values. -/
def parent : UInt32 := 4

/-- Marks the last compression of all. -/
def root : UInt32 := 8

/-- The compression of a node with further flags. -/
def Node.compress (node : Node) (flags : UInt32) : Block :=
  let h := node.chaining
  let v := rounds 7 node.message
    ⟨h.w0, h.w1, h.w2, h.w3, h.w4, h.w5, h.w6, h.w7,
     initial.w0, initial.w1, initial.w2, initial.w3,
     node.counter.toUInt32, (node.counter >>> 32).toUInt32, node.length, node.flags ||| flags⟩
  ⟨v.w0 ^^^ v.w8, v.w1 ^^^ v.w9, v.w2 ^^^ v.w10, v.w3 ^^^ v.w11,
   v.w4 ^^^ v.w12, v.w5 ^^^ v.w13, v.w6 ^^^ v.w14, v.w7 ^^^ v.w15,
   v.w8 ^^^ h.w0, v.w9 ^^^ h.w1, v.w10 ^^^ h.w2, v.w11 ^^^ h.w3,
   v.w12 ^^^ h.w4, v.w13 ^^^ h.w5, v.w14 ^^^ h.w6, v.w15 ^^^ h.w7⟩

/-! ### Chunks and the tree -/

/-- The byte at an index, zero behind the end. -/
@[inline] def byteAt (data : ByteArray) (index : Nat) : UInt32 :=
  if h : index < data.size then (data.get index h).toUInt32 else 0

/-- The message words of the 64 bytes from `start` on, zeros behind the end. -/
def messageAt (data : ByteArray) (start : Nat) : Block :=
  Block.ofFn fun place =>
    let index := start + 4 * place
    byteAt data index ||| byteAt data (index + 1) <<< 8 ||| byteAt data (index + 2) <<< 16 |||
      byteAt data (index + 3) <<< 24

/-- The last node of a chunk, `blocks` full blocks and `tail` more bytes after `start`. -/
def chunkFrom (data : ByteArray) (counter : UInt64) (tail : Nat) :
    Nat → Nat → Block → UInt32 → Node
  | 0, start, chaining, flags =>
    ⟨chaining, messageAt data start, counter, UInt32.ofNat tail, flags ||| chunkEnd⟩
  | blocks + 1, start, chaining, flags =>
    let node : Node := ⟨chaining, messageAt data start, counter, 64, flags⟩
    chunkFrom data counter tail blocks (start + 64) (node.compress 0) 0

/-- The last node of the chunk with `length` bytes, at most 1024, from `start` on. -/
def chunk (data : ByteArray) (start length : Nat) : Node :=
  let blocks := (length - 1) / 64
  chunkFrom data (UInt64.ofNat (start / 1024)) (length - 64 * blocks) blocks start initial chunkStart

/-- How many of more than 1024 bytes go to the left: the largest power of two of whole chunks that
leaves something on the right. -/
def leftLength (length : Nat) : Nat :=
  1024 * Nat.pow 2 ((length - 1) / 1024).log2

theorem leftLength_lt {length : Nat} (h : 1024 < length) :
    0 < leftLength length ∧ leftLength length < length := by
  have chunks : (length - 1) / 1024 ≠ 0 := by omega
  have power := Nat.log2_self_le chunks
  have pos : 0 < Nat.pow 2 ((length - 1) / 1024).log2 := Nat.pow_pos (by decide)
  unfold leftLength
  change Nat.pow 2 ((length - 1) / 1024).log2 ≤ _ at power
  omega

/-- The node that joins two chaining values. -/
def join (left right : Block) : Node :=
  ⟨initial,
   ⟨left.w0, left.w1, left.w2, left.w3, left.w4, left.w5, left.w6, left.w7,
    right.w0, right.w1, right.w2, right.w3, right.w4, right.w5, right.w6, right.w7⟩,
   0, 64, parent⟩

/-- The last node of the tree over `length` bytes from `start` on. -/
def tree (data : ByteArray) (start length : Nat) : Node :=
  if _ : 1024 < length then
    join ((tree data start (leftLength length)).compress 0)
      ((tree data (start + leftLength length) (length - leftLength length)).compress 0)
  else chunk data start length
termination_by length
decreasing_by
  · exact (leftLength_lt ‹_›).2
  · have := (leftLength_lt ‹1024 < length›).1
    omega

/-- The words of the digest and eight more. -/
def digest (data : ByteArray) : Block :=
  (tree data 0 data.size).compress root

/-- The digest of bytes: 32 bytes. -/
def hash (data : ByteArray) : List UInt8 :=
  ((digest data).toList.take 8).flatMap fun word => littleEndian 4 word.toNat

end Membranes.Blake3
