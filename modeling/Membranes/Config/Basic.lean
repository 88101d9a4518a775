import Membranes.Binary.Text

/-!
# Store configuration

Limits on what a store may hold, and how the buffer of a new membrane is filled. A configuration is
usable only when every limit is positive and the scale of random elements is a positive finite number;
`StoreConfig.validate` reports the first setting that breaks this, in the order of `LimitName.all`.
-/

namespace Membranes

/-- Capacity limits of a store. -/
structure Limits where
  /-- Most axes of a shape. -/
  maxAxes : UInt32
  /-- Most distinct symbols in one membrane. -/
  maxObjects : UInt32
  /-- Most children of one membrane. -/
  maxChildren : UInt32
  /-- Greatest nesting depth; roots are at depth one. -/
  maxDepth : UInt32
  /-- Most membranes alive at once. -/
  maxMembranes : UInt32
  /-- Most elements in one buffer. -/
  maxVolume : UInt64
  /-- The energy of a new membrane. -/
  initialEnergy : UInt32
deriving DecidableEq, Repr

/-- The limits of a store that is not configured. -/
def Limits.standard : Limits where
  maxAxes := 16
  maxObjects := 16
  maxChildren := 8
  maxDepth := 8
  maxMembranes := 64
  maxVolume := 16777216
  initialEnergy := 100

/-- How the buffer of a new membrane is filled. -/
inductive Filling where
  /-- With positive zeros. -/
  | zeros
  /-- With numbers from zero up to the scale, from the stream of a seed; without a seed the stream is
  arbitrary. -/
  | random (scale : Binary32) (seed : Option UInt64)
deriving DecidableEq, Repr

/-- The configuration of a store. -/
structure StoreConfig where
  /-- Capacity limits. -/
  limits : Limits
  /-- Filling of new buffers. -/
  filling : Filling
deriving DecidableEq, Repr

/-- The configuration of a store that is not configured. -/
def StoreConfig.standard : StoreConfig := ⟨.standard, .zeros⟩

/-! ### Validation -/

/-- The limits by name, in the order in which they are checked. -/
inductive LimitName where
  | maxAxes
  | maxObjects
  | maxChildren
  | maxMembranes
  | maxDepth
  | maxVolume
  | initialEnergy
deriving DecidableEq, Repr

namespace LimitName

/-- All limits in the order in which they are checked. -/
def all : List LimitName :=
  [maxAxes, maxObjects, maxChildren, maxMembranes, maxDepth, maxVolume, initialEnergy]

/-- The key of a limit in a configuration text. -/
def key : LimitName → String
  | maxAxes => "max_axes"
  | maxObjects => "max_objects"
  | maxChildren => "max_children"
  | maxMembranes => "max_membranes"
  | maxDepth => "max_depth"
  | maxVolume => "max_volume"
  | initialEnergy => "initial_energy"

/-- The value of a limit. -/
def value (limits : Limits) : LimitName → Nat
  | maxAxes => limits.maxAxes.toNat
  | maxObjects => limits.maxObjects.toNat
  | maxChildren => limits.maxChildren.toNat
  | maxMembranes => limits.maxMembranes.toNat
  | maxDepth => limits.maxDepth.toNat
  | maxVolume => limits.maxVolume.toNat
  | initialEnergy => limits.initialEnergy.toNat

end LimitName

/-- Why there is no configuration. -/
inductive ConfigFault where
  /-- The text cannot be read: the file is missing, or its bytes are no text. -/
  | unreadable
  /-- The text is not a document of the expected form. -/
  | malformed
  /-- A limit is zero. -/
  | zeroLimit (name : LimitName)
  /-- The scale of random elements is not a positive finite number. -/
  | badScale (scale : Binary32)
deriving DecidableEq, Repr

/-- The setting that a fault of validation blames. -/
def ConfigFault.field? : ConfigFault → Option String
  | .zeroLimit name => some s!"limits.{name.key}"
  | .badScale _ => some "init.scale"
  | _ => none

/-- The wording of a fault of validation. -/
def ConfigFault.message : ConfigFault → String
  | .unreadable => "Failed to read config file"
  | .malformed => "Failed to parse config"
  | .zeroLimit name =>
    s!"Invalid configuration: limits.{name.key} - must be greater than zero"
  | .badScale scale =>
    s!"Invalid configuration: init.scale - must be a positive finite number, got " ++
      scale.toText .plain

/-- Whether a scale is a positive finite number. -/
def Binary32.isUsableScale (scale : Binary32) : Bool :=
  scale.isFinite && !scale.isNegative && scale.magnitude ≠ 0

/-- The fault of a filling, if it has one. -/
def Filling.fault? : Filling → Option ConfigFault
  | .zeros => none
  | .random scale _ => if scale.isUsableScale then none else some (.badScale scale)

/-- The first fault of a configuration. -/
def StoreConfig.fault? (config : StoreConfig) : Option ConfigFault :=
  match LimitName.all.find? fun name => name.value config.limits == 0 with
  | some name => some (.zeroLimit name)
  | none => config.filling.fault?

/-- The configuration itself, or its first fault. -/
def StoreConfig.validate (config : StoreConfig) : Except ConfigFault StoreConfig :=
  match config.fault? with
  | none => .ok config
  | some fault => .error fault

/-! ### Synchronization -/

/-- How a conflict between two copies is settled. -/
inductive ConflictStrategy where
  /-- The copy with the greater tie-break key wins outright. -/
  | lastWriterWins
  /-- The buffers are averaged element by element. -/
  | blend
  /-- The local copy stays and the remote one is kept beside it. -/
  | split
deriving DecidableEq, Repr

namespace ConflictStrategy

/-- The name of a strategy. -/
def name : ConflictStrategy → String
  | lastWriterWins => "last_writer_wins"
  | blend => "blend"
  | split => "split"

/-- The strategy with a name. -/
def ofName? (s : String) : Option ConflictStrategy :=
  [lastWriterWins, blend, split].find? fun strategy => strategy.name == s

end ConflictStrategy

/-- The policy of a synchronization engine. -/
structure SyncPolicy where
  /-- How conflicts are settled unless a call says otherwise. -/
  strategy : ConflictStrategy
  /-- Whether a local copy that prevails is sent out again. -/
  rebroadcasts : Bool
deriving DecidableEq, Repr

/-- The policy of an engine that is not configured. -/
def SyncPolicy.standard : SyncPolicy := ⟨.lastWriterWins, true⟩

/-- Everything a script session is configured with. -/
structure SessionConfig where
  /-- The store. -/
  store : StoreConfig
  /-- The engine behind the synchronization command. -/
  sync : SyncPolicy
deriving DecidableEq, Repr

/-- The configuration of a session that is not configured. -/
def SessionConfig.standard : SessionConfig := ⟨.standard, .standard⟩

end Membranes
