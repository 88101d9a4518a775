import Membranes.Binary.Basic
import Membranes.Binary.Decimal
import Membranes.Binary.Format
import Membranes.Binary.Text
import Membranes.Blake3
import Membranes.Block
import Membranes.Checksum
import Membranes.CommandLine
import Membranes.Config.Basic
import Membranes.Config.Document
import Membranes.Exchange.Engine
import Membranes.Exchange.Fault
import Membranes.Exchange.Installation
import Membranes.Exchange.Outbound
import Membranes.Exchange.Tally
import Membranes.IdMap
import Membranes.KeyStream
import Membranes.Main
import Membranes.Membrane
import Membranes.MembraneId
import Membranes.Message.Basic
import Membranes.Message.Bytes
import Membranes.Primality
import Membranes.Refusal
import Membranes.Script.Command
import Membranes.Script.Session
import Membranes.Shape.Basic
import Membranes.Shape.Canonical
import Membranes.Shape.Offset
import Membranes.Shape.Text
import Membranes.Snapshot.Basic
import Membranes.Snapshot.Merge
import Membranes.Store.Basic
import Membranes.Store.Content
import Membranes.Store.Lifecycle
import Membranes.Store.Operation
import Membranes.Store.Rendering
import Membranes.Store.Shared
import Membranes.Store.Symbols
import Membranes.Text.Blank
import Membranes.Text.Numeral
import Membranes.Text.Utf8
import Membranes.Toml.Document
import Membranes.Toml.Numbers
import Membranes.Toml.Strings
import Membranes.Toml.Value
import Membranes.Word
import Membranes.Proofs.Store.Outcome
import Membranes.Proofs.Store.Step
import Membranes.Proofs.Store.Operation
import Membranes.Proofs.Store.Sound
import Membranes.Proofs.Snapshot.Merge
import Membranes.Proofs.Exchange.Installation
import Membranes.Proofs.Exchange.Delivery
import Membranes.Proofs.Exchange.Refinement
import Membranes.Proofs.Exchange.Replica
import Membranes.Proofs.Exchange.Network
import Membranes.Proofs.Store.Ownership
import Membranes.Proofs.Store.Subtree
import Membranes.Proofs.Store.Forest
import Membranes.Proofs.Exchange.Wholeness
import Membranes.Proofs.Store.Refused
import Membranes.Proofs.Snapshot.Exchange
import Membranes.Proofs.Exchange.Rebroadcast
import Membranes.Proofs.Script.Lines
import Membranes.Proofs.Snapshot.Checksum
import Membranes.Proofs.Store.Stream
import Membranes.Proofs.Exchange.Independence
import Membranes.Proofs.Script.Failure
import Membranes.Proofs.Store.Depth
import Membranes.Proofs.Exchange.Acceptance
import Membranes.Proofs.Exchange.Redelivery
import Membranes.Proofs.Store.Clients
import Membranes.Proofs.Store.Accounts
import Membranes.Proofs.Exchange.Calls
import Membranes.Proofs.Exchange.Listeners
import Membranes.Proofs.Exchange.Counts
import Membranes.Proofs.Store.Census
import Membranes.Proofs.Script.Tracking
import Membranes.Proofs.Store.Capacity
import Membranes.Proofs.Exchange.Room
import Membranes.Proofs.Exchange.Recovery
import Membranes.Proofs.Exchange.Capacity
import Membranes.Proofs.Shape.Coordinate
import Membranes.Proofs.Store.Destruction
import Membranes.Proofs.Store.Relabelling
import Membranes.Proofs.Store.Transfer
import Membranes.Proofs.Exchange.Stale
import Membranes.Proofs.Exchange.Turnover
import Membranes.Proofs.Exchange.Numbering
import Membranes.Proofs.Snapshot.Settlement
import Membranes.Proofs.Exchange.Standings
import Membranes.Proofs.Shape.Refinement
import Membranes.Proofs.Shape.Text
import Membranes.Proofs.Store.Rendering
import Membranes.Proofs.Config.Usable
import Membranes.Proofs.Exchange.Seeding
import Membranes.Proofs.Binary.Rounding
import Membranes.Proofs.Binary.Decimal
import Membranes.Proofs.Binary.Literal
import Membranes.Proofs.Script.Spelling
import Membranes.Proofs.Shape.Volume
import Membranes.Proofs.Shape.Primes
