import Membranes.Message.Bytes

/-!
# Faults of an exchange

What can go wrong when copies of membranes travel between stores: the copy is damaged, its bytes are no
message, nobody takes it, or the store refuses it.
-/

namespace Membranes

/-- Why an exchange fails. -/
inductive ExchangeFault where
  /-- A snapshot is damaged. -/
  | corrupt (id : MembraneId) (fault : SnapshotFault)
  /-- Bytes are no message. -/
  | wire (fault : WireFault)
  /-- A snapshot could not be sent. -/
  | unsent (reason : String)
  /-- The store refused an operation. -/
  | refused (refusal : Refusal)
deriving DecidableEq

/-- The wording of a fault. -/
def ExchangeFault.message : ExchangeFault → String
  | .corrupt id fault => s!"Corrupt snapshot for {id.toText}: {fault.reason}"
  | .wire fault => fault.message
  | .unsent reason => s!"Broadcast failed: {reason}"
  | .refused refusal => refusal.message

end Membranes
