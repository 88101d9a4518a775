import Membranes.Message.Basic

/-!
# Messages as bytes

All numbers are little-endian and of fixed width: a message is its schema version in two bytes and then
its payload, a choice is a word that counts the possibilities from zero, and a list is its length in
eight bytes and then its members. `Message.decode` reads what `Message.encode` writes; what follows
a message is ignored. The schema version is looked at before anything else, so a message of another
schema is refused whatever else is wrong with it.
-/

namespace Membranes

/-! ### Writing -/

/-- A word in four bytes. -/
def wordBytes (word : UInt32) : List UInt8 := littleEndian 4 word.toNat

/-- A long word in eight bytes. -/
def longWordBytes (word : UInt64) : List UInt8 := littleEndian 8 word.toNat

/-- A list of words: the length, then the members. -/
def wordListBytes (words : List UInt32) : List UInt8 :=
  littleEndian 8 words.length ++ words.flatMap wordBytes

namespace Snapshot

/-- The bytes of a snapshot. -/
def encode (snapshot : Snapshot) : List UInt8 :=
  wordBytes snapshot.id.value ++ wordListBytes snapshot.shape.axes ++
    longWordBytes snapshot.version ++ wordBytes snapshot.checksum ++
    wordListBytes (snapshot.buffer.toList.map (·.bits))

end Snapshot

/-- The choices of a resolution in the order of their numbers. -/
def Resolution.all : List Resolution := [.localWins, .remoteWins, .blended, .split]

/-- The bytes of a resolution. -/
def Resolution.encode (resolution : Resolution) : List UInt8 :=
  littleEndian 4 (Resolution.all.idxOf resolution)

/-- The bytes of a decision. -/
def Decision.encode : Decision → List UInt8
  | .accept => littleEndian 4 0
  | .reject => littleEndian 4 1
  | .conflict resolution => littleEndian 4 2 ++ resolution.encode

/-- The bytes of an acknowledgment. -/
def Acknowledgment.encode (ack : Acknowledgment) : List UInt8 :=
  wordBytes ack.id.value ++ longWordBytes ack.version ++ wordBytes ack.checksum ++
    ack.decision.encode

/-- The bytes of a payload. -/
def Payload.encode : Payload → List UInt8
  | .snapshot content => littleEndian 4 0 ++ content.encode
  | .acknowledgment ack => littleEndian 4 1 ++ ack.encode

/-- The bytes of a message. -/
def Message.encode (message : Message) : List UInt8 :=
  littleEndian 2 message.schema.toNat ++ message.payload.encode

/-! ### Reading -/

/-- Why bytes are no message. -/
inductive WireFault where
  /-- There are not even the bytes of a schema version. -/
  | noSchema
  /-- The schema version is another one. -/
  | unknownSchema (found : UInt16)
  /-- The bytes end inside a message. -/
  | truncated
  /-- A choice has a number that none of the `count` possibilities has. -/
  | badChoice (index : UInt32) (count : Nat)
  /-- The axis sizes of a snapshot are no shape. -/
  | shape (fault : ShapeFault)
deriving DecidableEq

/-- The wording of a fault. -/
def WireFault.message : WireFault → String
  | .noSchema => "Serialization error: message shorter than its schema header"
  | .unknownSchema found =>
    s!"Unsupported wire schema {found}, expected {Message.schemaVersion}"
  | .truncated => "Serialization error: io error: unexpected end of file"
  | .badChoice index count =>
    s!"Serialization error: invalid value: integer \x60{index}\x60, " ++
      s!"expected variant index 0 <= i < {count}"
  | .shape fault => s!"Serialization error: {fault.message}"

/-- Reads something from the front of a list of bytes and returns the rest. -/
abbrev Wire (α : Type) := List UInt8 → Except WireFault (α × List UInt8)

namespace Wire

/-- Reads a number of `count` bytes. -/
def number (count : Nat) : Wire Nat := fun bytes =>
  let taken := bytes.take count
  if taken.length = count then .ok (ofLittleEndian taken, bytes.drop count) else .error .truncated

/-- Reads a word. -/
def word : Wire UInt32 := fun bytes => do
  let (n, rest) ← number 4 bytes
  return (UInt32.ofNat n, rest)

/-- Reads a long word. -/
def longWord : Wire UInt64 := fun bytes => do
  let (n, rest) ← number 8 bytes
  return (UInt64.ofNat n, rest)

/-- Reads a number of words. -/
def words : Nat → Wire (List UInt32)
  | 0, bytes => .ok ([], bytes)
  | count + 1, bytes => do
    let (first, rest) ← word bytes
    let (more, rest) ← words count rest
    return (first :: more, rest)

/-- Reads a list of words behind its length. -/
def wordList : Wire (List UInt32) := fun bytes => do
  let (count, rest) ← number 8 bytes
  words count rest

/-- Reads the number of a choice and takes the branch with that number. -/
def choice {α : Type} (branches : List (Wire α)) : Wire α := fun bytes => do
  let (index, rest) ← word bytes
  match branches[index.toNat]? with
  | some branch => branch rest
  | none => .error (.badChoice index branches.length)

/-- Reads the axis sizes of a shape. -/
def shape : Wire Shape := fun bytes => do
  let (axes, rest) ← wordList bytes
  match Shape.ofAxes axes with
  | .ok shape => .ok (shape, rest)
  | .error fault => .error (.shape fault)

/-- Reads a snapshot. -/
def snapshot : Wire Snapshot := fun bytes => do
  let (id, rest) ← word bytes
  let (shape, rest) ← shape rest
  let (version, rest) ← longWord rest
  let (checksum, rest) ← word rest
  let (elements, rest) ← wordList rest
  let buffer := (elements.map Binary32.mk).toArray
  return ({ id := ⟨id⟩, shape, version, checksum, buffer }, rest)

/-- Reads nothing. -/
def always {α : Type} (value : α) : Wire α := fun bytes => .ok (value, bytes)

/-- Reads a resolution. -/
def resolution : Wire Resolution := choice (Resolution.all.map always)

/-- Reads a decision. -/
def decision : Wire Decision :=
  choice [always .accept, always .reject, fun bytes => do
    let (resolution, rest) ← resolution bytes
    return (.conflict resolution, rest)]

/-- Reads an acknowledgment. -/
def acknowledgment : Wire Acknowledgment := fun bytes => do
  let (id, rest) ← word bytes
  let (version, rest) ← longWord rest
  let (checksum, rest) ← word rest
  let (decision, rest) ← decision rest
  return ({ id := ⟨id⟩, version, checksum, decision }, rest)

/-- Reads a payload. -/
def payload : Wire Payload :=
  choice [
    fun bytes => do
      let (snapshot, rest) ← snapshot bytes
      return (.snapshot snapshot, rest),
    fun bytes => do
      let (ack, rest) ← acknowledgment bytes
      return (.acknowledgment ack, rest)]

end Wire

/-- Reads a message. What follows it is ignored. -/
def Message.decode (bytes : List UInt8) : Except WireFault Message :=
  match Wire.number 2 bytes with
  | .error _ => .error .noSchema
  | .ok (found, rest) =>
    let schema := UInt16.ofNat found
    if schema ≠ schemaVersion then .error (.unknownSchema schema)
    else do
      let (payload, _) ← Wire.payload rest
      return { schema, payload }

end Membranes
