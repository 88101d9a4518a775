import Membranes.Snapshot.Merge

/-!
# What an engine remembers

For every membrane the engine remembers how its last exchange ended, and over all membranes it counts
what came in and what went out.
-/

namespace Membranes

/-- How the last exchange of a membrane ended. -/
inductive Standing where
  /-- There was none. -/
  | idle
  /-- Both sides have the same content. -/
  | inSync
  /-- The local side is ahead. -/
  | diverged
  /-- The remote copy was put beside the local one. -/
  | split (sibling : MembraneId)
deriving DecidableEq, Repr

/-- How an exchange ended, by the decision taken and the membrane made for the remote copy. -/
def Standing.ofDecision (sibling : Option MembraneId) : Decision → Standing
  | .accept => .inSync
  | .reject => .diverged
  | .conflict .split => sibling.elim .inSync .split
  | .conflict _ => .inSync

/-- A count is read as a number. -/
instance coeCount : CoeOut UInt64 Nat := ⟨UInt64.toNat⟩

/-- What an engine has counted. Each count is a word, and goes around after `2 ^ 64`. -/
structure Tally where
  /-- Remote snapshots. -/
  received : UInt64
  /-- Remote snapshots that were damaged. -/
  corrupt : UInt64
  /-- Remote copies that were newer or the same. -/
  accepted : UInt64
  /-- Remote copies that were older. -/
  rejected : UInt64
  /-- Conflicts. -/
  conflicts : UInt64
  /-- Conflicts settled by averaging. -/
  blends : UInt64
  /-- Conflicts settled by putting the remote copy beside the local one. -/
  splits : UInt64
  /-- Snapshots sent out. -/
  sent : UInt64
  /-- Snapshots that nobody took after a merge. -/
  unsent : UInt64
deriving DecidableEq, Repr

namespace Tally

/-- The tally of a new engine. -/
def zero : Tally := ⟨0, 0, 0, 0, 0, 0, 0, 0, 0⟩

variable (tally : Tally)

/-- Counts a remote snapshot. -/
def countReceived : Tally := { tally with received := tally.received + 1 }

/-- Counts a damaged snapshot. -/
def countCorrupt : Tally := { tally with corrupt := tally.corrupt + 1 }

/-- Counts a snapshot sent out. -/
def countSent : Tally := { tally with sent := tally.sent + 1 }

/-- Counts a snapshot that nobody took. -/
def countUnsent : Tally := { tally with unsent := tally.unsent + 1 }

/-- Counts how a conflict was settled. A split counts when a membrane was made for it. -/
def countResolution (sibling : Option MembraneId) : Resolution → Tally
  | .split => if sibling.isSome then { tally with splits := tally.splits + 1 } else tally
  | .blended => { tally with blends := tally.blends + 1 }
  | .localWins | .remoteWins => tally

/-- Counts a decision. -/
def countDecision (sibling : Option MembraneId) : Decision → Tally
  | .accept => { tally with accepted := tally.accepted + 1 }
  | .reject => { tally with rejected := tally.rejected + 1 }
  | .conflict resolution =>
    { tally with conflicts := tally.conflicts + 1 }.countResolution sibling resolution

end Tally

end Membranes
