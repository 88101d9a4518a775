import Membranes.Exchange.Fault

/-!
# Ways out

The way on which an engine sends snapshots out is any state machine that takes or refuses each snapshot
offered to it. What it does with the snapshots it takes is its own business.
-/

namespace Membranes

/-- A way to send snapshots out: a state that changes with every snapshot offered, and may refuse it. -/
class Outbound (σ : Type) where
  /-- Offers a snapshot. -/
  offer : σ → Snapshot → Except ExchangeFault Unit × σ

/-- The way out of an engine without peers. -/
structure NoPeers where
deriving DecidableEq, Repr

/-- Without peers everything is taken and dropped. -/
instance : Outbound NoPeers := ⟨fun peers _ => (.ok (), peers)⟩

end Membranes
