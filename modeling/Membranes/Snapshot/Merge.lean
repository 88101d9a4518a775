import Membranes.Snapshot.Basic

/-!
# Merging two copies

Two snapshots of a membrane are ordered by version. Equal versions with equal checksums are the same
copy, and equal versions with different checksums are a conflict, which a strategy settles. Everything
here is a function of the two snapshots alone, so that two stores which exchange theirs decide alike:
the winner of a tie depends on the pair and not on who asks.
-/

namespace Membranes

/-- How a remote copy relates to the local one. -/
inductive Comparison where
  /-- The local version is higher. -/
  | localNewer
  /-- The remote version is higher. -/
  | remoteNewer
  /-- Version and checksum are the same. -/
  | equal
  /-- The versions are the same and the checksums are not. -/
  | conflict
deriving DecidableEq, Repr

/-- How a conflict was settled. -/
inductive Resolution where
  /-- The local content stays. -/
  | localWins
  /-- The remote content is taken over. -/
  | remoteWins
  /-- The two buffers are averaged. -/
  | blended
  /-- The remote copy is kept beside the local one. -/
  | split
deriving DecidableEq, Repr

/-- What the receiver does with a remote copy. -/
inductive Decision where
  /-- The remote copy is newer or the same: the local one ends up matching it. -/
  | accept
  /-- The remote copy is older and ignored. -/
  | reject
  /-- The versions were the same and the contents were not. -/
  | conflict (resolution : Resolution)
deriving DecidableEq, Repr

/-- The name of a resolution. -/
def Resolution.name : Resolution → String
  | .localWins => "LocalWins"
  | .remoteWins => "RemoteWins"
  | .blended => "Blended"
  | .split => "Split"

/-- A decision as text. -/
def Decision.toText : Decision → String
  | .accept => "Accept"
  | .reject => "Reject"
  | .conflict resolution => s!"Conflict({resolution.name})"

/-- What a merge decides. -/
structure Settlement where
  /-- How the copies were related. -/
  comparison : Comparison
  /-- The decision. -/
  decision : Decision
  /-- What the local membrane is to hold, under the local identifier. -/
  result : Snapshot
  /-- Whether that is something new. -/
  changed : Bool
  /-- A copy to be kept beside the local one. -/
  split : Option Snapshot
deriving DecidableEq

namespace Settlement

/-- The local copy stays as it is. -/
def keep (comparison : Comparison) (decision : Decision) (mine : Snapshot) : Settlement where
  comparison
  decision
  result := mine
  changed := false
  split := none

/-- The remote copy is taken over under the local identifier. -/
def adopt (comparison : Comparison) (decision : Decision) (mine other : Snapshot) :
    Settlement where
  comparison
  decision
  result := { other with id := mine.id }
  changed := true
  split := none

/-- Whether the local side has something that the remote side should hear of. -/
def prevails (settlement : Settlement) : Bool :=
  match settlement.decision with
  | .reject | .conflict .localWins | .conflict .blended => true
  | .accept | .conflict .remoteWins | .conflict .split => false

end Settlement

namespace Snapshot

variable (mine other : Snapshot)

/-- Orders two copies by version, then tells apart their checksums. -/
def compare : Comparison :=
  if other.version < mine.version then .localNewer
  else if mine.version < other.version then .remoteNewer
  else if mine.checksum = other.checksum then .equal
  else .conflict

/-- Whether the other copy wins a tie: its key is greater, identifiers first. -/
def losesTie : Bool :=
  let (id, checksum) := mine.key
  let (otherId, otherChecksum) := other.key
  id < otherId ∨ id = otherId ∧ checksum < otherChecksum

/-- The average of two copies, in the shape of the winner of the tie and one version further. -/
def blend : Snapshot :=
  let winner := if mine.losesTie other then other else mine
  let buffer := mine.buffer.zipWith (fun x y => (x.add y).half) other.buffer
  ofContent mine.id winner.shape (mine.version + 1) buffer

/-- The winner of a tie stays or is taken over. -/
def settleTie : Settlement :=
  if mine.losesTie other then .adopt .conflict (.conflict .remoteWins) mine other
  else .keep .conflict (.conflict .localWins) mine

/-- Settles a conflict. Buffers of different length cannot be averaged; then the winner of the tie is
taken. -/
def settle (strategy : ConflictStrategy) : Settlement :=
  match strategy with
  | .lastWriterWins => mine.settleTie other
  | .blend =>
    if mine.buffer.size = other.buffer.size then
      { comparison := .conflict
        decision := .conflict .blended
        result := mine.blend other
        changed := true
        split := none }
    else mine.settleTie other
  | .split => { Settlement.keep .conflict (.conflict .split) mine with split := some other }

/-- Merges a remote copy into the local one; conflicts fall to the last writer unless there is a
strategy. -/
def merge (strategy : Option ConflictStrategy) : Settlement :=
  match mine.compare other with
  | .remoteNewer => .adopt .remoteNewer .accept mine other
  | .localNewer => .keep .localNewer .reject mine
  | .equal => .keep .equal .accept mine
  | .conflict => mine.settle other (strategy.getD .lastWriterWins)

end Snapshot

end Membranes
