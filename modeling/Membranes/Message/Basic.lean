import Membranes.Snapshot.Merge

/-!
# Messages between stores

A message carries a snapshot, or the acknowledgment of one, under the schema version of its sender.
`Message.schemaVersion` is the only version that is understood.
-/

namespace Membranes

/-- The answer of a receiver to a snapshot. -/
structure Acknowledgment where
  /-- The membrane of the receiver. -/
  id : MembraneId
  /-- Its version after the merge. -/
  version : UInt64
  /-- Its checksum after the merge. -/
  checksum : UInt32
  /-- The decision taken. -/
  decision : Decision
deriving DecidableEq, Repr

/-- What a message carries. -/
inductive Payload where
  /-- A whole snapshot. -/
  | snapshot (snapshot : Snapshot)
  /-- The acknowledgment of a snapshot. -/
  | acknowledgment (ack : Acknowledgment)
deriving DecidableEq

/-- A message between stores. -/
structure Message where
  /-- The schema version that the sender wrote. -/
  schema : UInt16
  /-- What is carried. -/
  payload : Payload
deriving DecidableEq

/-- The schema version that is written and understood. -/
def Message.schemaVersion : UInt16 := 1

namespace Message

/-- A message with a snapshot. -/
def ofSnapshot (snapshot : Snapshot) : Message := ⟨schemaVersion, .snapshot snapshot⟩

/-- A message with an acknowledgment. -/
def ofAcknowledgment (ack : Acknowledgment) : Message := ⟨schemaVersion, .acknowledgment ack⟩

/-- The snapshot that a message carries. -/
def snapshot? (message : Message) : Option Snapshot :=
  match message.payload with
  | .snapshot snapshot => some snapshot
  | .acknowledgment _ => none

/-- The acknowledgment that a message carries. -/
def acknowledgment? (message : Message) : Option Acknowledgment :=
  match message.payload with
  | .snapshot _ => none
  | .acknowledgment ack => some ack

end Message

/-- Whether two messages are the same, elements compared as numbers. -/
def Message.agrees (a b : Message) : Bool :=
  match a.payload, b.payload with
  | .snapshot s, .snapshot t => a.schema == b.schema && s.agrees t
  | _, _ => a == b

end Membranes
