import Membranes.Store.Basic

/-!
# Snapshots

A snapshot is the part of a membrane that other stores may see: its content and what orders two copies
of it. Symbols, energy and the place in the forest stay behind. A snapshot from elsewhere may be
damaged; `Snapshot.verify` holds it against its own shape and checksum.
-/

namespace Membranes

/-- The content of a membrane at one version. -/
structure Snapshot where
  /-- The membrane that the snapshot was taken from, as its own store numbers it. -/
  id : MembraneId
  /-- The shape of the buffer. -/
  shape : Shape
  /-- The version of the membrane. -/
  version : UInt64
  /-- The checksum that the sender states. -/
  checksum : UInt32
  /-- The elements in flat row-major order. -/
  buffer : Array Binary32
deriving DecidableEq

/-- What is wrong with a snapshot. -/
inductive SnapshotFault where
  /-- The shape has no axis. -/
  | scalar
  /-- The elements do not fill the shape. -/
  | wrongLength (held : Nat) (shape : Shape)
  /-- The checksum stated is not the one of the content. -/
  | wrongChecksum (stated actual : UInt32)
deriving DecidableEq

/-- The wording of a fault. -/
def SnapshotFault.reason : SnapshotFault → String
  | .scalar => "shape has no axes"
  | .wrongLength held shape =>
    s!"buffer holds {held} elements, shape {shape.toText} needs {shape.volume}"
  | .wrongChecksum stated actual =>
    s!"checksum {Text.hex8 stated} does not match content {Text.hex8 actual}"

namespace Snapshot

/-- The snapshot of a membrane. -/
def ofMembrane (membrane : Membrane) : Snapshot where
  id := membrane.id
  shape := membrane.shape
  version := membrane.version
  checksum := membrane.checksum
  buffer := membrane.buffer

/-- The snapshot of some content, with its checksum. -/
def ofContent (id : MembraneId) (shape : Shape) (version : UInt64) (buffer : Array Binary32) :
    Snapshot where
  id
  shape
  version
  checksum := checksumOf shape buffer
  buffer

variable (snapshot : Snapshot)

/-- The first thing that is wrong with a snapshot: its shape, its length, its checksum. -/
def verify : Except SnapshotFault Unit :=
  let actual := checksumOf snapshot.shape snapshot.buffer
  if snapshot.shape.isScalar then .error .scalar
  else if snapshot.buffer.size ≠ snapshot.shape.volume.toNat then
    .error (.wrongLength snapshot.buffer.size snapshot.shape)
  else if actual ≠ snapshot.checksum then .error (.wrongChecksum snapshot.checksum actual)
  else .ok ()

/-- What decides between two copies of the same version: the greater pair wins. -/
def key : MembraneId × UInt32 := (snapshot.id, snapshot.checksum)

/-- Whether two snapshots are the same, their elements compared as numbers. -/
def agrees (a b : Snapshot) : Bool :=
  { a with buffer := #[] } == { b with buffer := #[] } && a.buffer.isEqv b.buffer Binary32.agrees

/-- A snapshot as a JSON object without blanks. -/
def toText : String :=
  let axes := Text.joined "," (snapshot.shape.axes.map toString)
  let elements := Text.joined "," (snapshot.buffer.toList.map (·.toText .json))
  s!"\x7b\"membrane_id\":{snapshot.id.value},\"shape\":[{axes}],\"version\":{snapshot.version}," ++
    s!"\"checksum\":{snapshot.checksum},\"buffer\":[{elements}]\x7d"

end Snapshot

/-- The snapshot of a live membrane. -/
def Store.snapshot (store : Store) (id : MembraneId) : Except Refusal Snapshot :=
  (store.membrane id).map Snapshot.ofMembrane

end Membranes
