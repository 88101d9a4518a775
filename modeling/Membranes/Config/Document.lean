import Membranes.Config.Basic
import Membranes.Text.Utf8
import Membranes.Toml.Document

/-!
# Configuration documents

How a TOML document becomes a configuration. Settings come in groups, and a group may leave out any of
them and name others that nobody asks for. Reading has two stages: the document must have the right
form, and then the store it describes must be usable (`StoreConfig.validate`).
-/

namespace Membranes

/-! ### Single settings -/

namespace Toml.Value

/-- A whole number that is not negative and lies below `bound`. -/
def below? (bound : Nat) : Value → Option Nat
  | integer i => if 0 ≤ i ∧ i < bound then some i.toNat else none
  | _ => none

/-- A 32-bit setting. -/
def word? (value : Value) : Option UInt32 := (value.below? UInt32.size).map UInt32.ofNat

/-- A 64-bit setting. -/
def longWord? (value : Value) : Option UInt64 := (value.below? UInt64.size).map UInt64.ofNat

/-- A truth value. -/
def boolean? : Value → Option Bool
  | boolean b => some b
  | _ => none

/-- An element, from a number of either kind. -/
def element? : Value → Option Binary32
  | integer i => some (.ofInt i)
  | number x => some x.toBinary32
  | _ => none

/-- Whether nothing is inside. -/
def isEmpty : Value → Bool
  | array _ elements => elements.isEmpty
  | table _ fields => fields.isEmpty
  | _ => false

/-- Whether a value can stand for a group of settings. A moment can: it is a group without any. -/
def isGroup : Value → Bool
  | array _ _ | table _ _ | moment => true
  | _ => false

/-- The value given for one setting of a group: by its name in a table, by its place in an array. -/
def setting? (name : String) (place : Nat) : Value → Option Value
  | table _ fields => Fields.get? fields name
  | array _ elements => elements[place]?
  | _ => none

/-- Reads one setting of a group; `standard` is taken where it is left out. -/
def readSetting {α : Type} (group : Value) (name : String) (place : Nat) (standard : α)
    (read : Value → Option α) : Option α :=
  match group.setting? name place with
  | none => some standard
  | some value => read value

end Toml.Value

open Toml (Value)

/-! ### Groups -/

/-- Reads the limits of a store. -/
def Limits.ofValue? (group : Value) : Option Limits :=
  if group.isGroup then do
    let standard := Limits.standard
    let maxAxes ← group.readSetting "max_axes" 0 standard.maxAxes Value.word?
    let maxObjects ← group.readSetting "max_objects" 1 standard.maxObjects Value.word?
    let maxChildren ← group.readSetting "max_children" 2 standard.maxChildren Value.word?
    let maxDepth ← group.readSetting "max_depth" 3 standard.maxDepth Value.word?
    let maxMembranes ← group.readSetting "max_membranes" 4 standard.maxMembranes Value.word?
    let maxVolume ← group.readSetting "max_volume" 5 standard.maxVolume Value.longWord?
    let initialEnergy ← group.readSetting "initial_energy" 6 standard.initialEnergy Value.word?
    some { maxAxes, maxObjects, maxChildren, maxDepth, maxMembranes, maxVolume, initialEnergy }
  else none

/-- Reads a filling. Its kind is required, and a random one needs its scale. An array has the kind in
front, then the settings of that kind, and nothing more. -/
def Filling.ofValue? : Value → Option Filling
  | .table _ fields =>
    match Toml.Fields.get? fields "kind" with
    | some (.string "zeros") => some .zeros
    | some (.string "random") => do
      let scale ← (← Toml.Fields.get? fields "scale").element?
      match Toml.Fields.get? fields "seed" with
      | none => some (.random scale none)
      | some seed => some (.random scale (some (← seed.longWord?)))
    | _ => none
  | .array _ [.string "zeros"] => some .zeros
  | .array _ [.string "random", scale] => do some (.random (← scale.element?) none)
  | .array _ [.string "random", scale, seed] => do
    some (.random (← scale.element?) (some (← seed.longWord?)))
  | _ => none

/-- Reads the configuration of a store. -/
def StoreConfig.ofValue? (group : Value) : Option StoreConfig :=
  if group.isGroup then do
    let limits ← group.readSetting "limits" 0 .standard Limits.ofValue?
    let filling ← group.readSetting "init" 1 .zeros Filling.ofValue?
    some { limits, filling }
  else none

/-- Reads a strategy: its name, or a table whose only key is the name, with nothing under it. -/
def ConflictStrategy.ofValue? : Value → Option ConflictStrategy
  | .string name => ConflictStrategy.ofName? name
  | .table _ [(name, value)] => if value.isEmpty then ConflictStrategy.ofName? name else none
  | _ => none

/-- Reads the policy of an engine. -/
def SyncPolicy.ofValue? (group : Value) : Option SyncPolicy :=
  if group.isGroup then do
    let standard := SyncPolicy.standard
    let strategy ←
      group.readSetting "default_strategy" 0 standard.strategy ConflictStrategy.ofValue?
    let rebroadcasts ←
      group.readSetting "rebroadcast_local_wins" 1 standard.rebroadcasts Value.boolean?
    some { strategy, rebroadcasts }
  else none

/-- Reads the configuration of a session. -/
def SessionConfig.ofValue? (group : Value) : Option SessionConfig :=
  if group.isGroup then do
    let store ← group.readSetting "store" 0 .standard StoreConfig.ofValue?
    let sync ← group.readSetting "sync" 1 .standard SyncPolicy.ofValue?
    some { store, sync }
  else none

/-! ### Texts -/

/-- Reads a document and then the group of settings that it is. -/
def readDocument {α : Type} (read : Value → Option α) (s : List Char) : Except ConfigFault α :=
  match (Toml.Document.read s).bind fun fields => read (.table .header fields) with
  | some config => .ok config
  | none => .error .malformed

/-- The configuration of a store from a text. -/
def StoreConfig.ofText (s : List Char) : Except ConfigFault StoreConfig := do
  (← readDocument StoreConfig.ofValue? s).validate

/-- The policy of an engine from a text. -/
def SyncPolicy.ofText (s : List Char) : Except ConfigFault SyncPolicy :=
  readDocument SyncPolicy.ofValue? s

/-- The configuration of a session from a text. -/
def SessionConfig.ofText (s : List Char) : Except ConfigFault SessionConfig := do
  let config ← readDocument SessionConfig.ofValue? s
  discard config.store.validate
  return config

/-! ### Files -/

/-- What reading a file gives. -/
inductive FileContent where
  /-- There is no such file. -/
  | missing
  /-- There is something, but it cannot be read. -/
  | unreadable
  /-- The bytes of the file. -/
  | bytes (content : List UInt8)
deriving DecidableEq, Repr

/-- The characters of a file. -/
def FileContent.text : FileContent → Except ConfigFault (List Char)
  | bytes content =>
    match Text.decode content with
    | .ok s => .ok s
    | .error _ => .error .unreadable
  | _ => .error .unreadable

/-- The configuration of a store from a file, which must exist. -/
def StoreConfig.ofFile (file : FileContent) : Except ConfigFault StoreConfig := do
  StoreConfig.ofText (← file.text)

/-- The configuration of a session from a file; without the file it is the standard one. -/
def SessionConfig.ofFile (file : FileContent) : Except ConfigFault SessionConfig :=
  match file with
  | .missing => .ok .standard
  | _ => do SessionConfig.ofText (← file.text)

end Membranes
