import Membranes.Binary.Text
import Membranes.Exchange.Fault
import Membranes.Text.Utf8

/-!
# Script commands

A line of a script is a keyword and its arguments, separated by blanks. `Command.ofText` reads one;
empty lines and lines that begin with `#` hold no command. The fault of a line that holds none either
names the argument at fault and why it cannot be read.
-/

namespace Membranes

/-- A command of a script. -/
inductive Command where
  /-- Written `create <shape>`. -/
  | create (shape : Shape)
  /-- Written `child <owner> <shape>`. -/
  | child (owner : MembraneId) (shape : Shape)
  /-- Written `destroy <id>`. -/
  | destroy (id : MembraneId)
  /-- Written `reshape <id> <shape>`, or with `resize`. -/
  | reshape (id : MembraneId) (shape : Shape)
  /-- Written `add <id> <symbol>`. -/
  | add (id : MembraneId) (symbol : String)
  /-- Written `remove <id> <symbol>`. -/
  | remove (id : MembraneId) (symbol : String)
  /-- Written `transfer <source> <target> <symbol>`. -/
  | transfer (source target : MembraneId) (symbol : String)
  /-- Written `get <id> <indices>`. -/
  | get (id : MembraneId) (indices : List UInt32)
  /-- Written `set <id> <indices> <value>`. -/
  | set (id : MembraneId) (indices : List UInt32) (value : Binary32)
  /-- Written `fill <id> <value>`. -/
  | fill (id : MembraneId) (value : Binary32)
  /-- Written `energy <id> <amount>`. -/
  | energy (id : MembraneId) (amount : UInt32)
  /-- Written `print`, or `print <id>` for one membrane and what is below it. -/
  | print (id : Option MembraneId)
  /-- Written `snapshot <id>`. -/
  | snapshot (id : MembraneId)
  /-- Written `sync <target> <source>`: the snapshot of the source goes into the target. -/
  | sync (target source : MembraneId)
  /-- Written `count`. -/
  | count
deriving DecidableEq

/-- Why a line of a script fails. -/
inductive ScriptFault where
  /-- An argument is no identifier. -/
  | badId (text : String) (fault : Text.NumeralFault)
  /-- An argument is no shape. -/
  | badShape (text : String) (fault : ShapeFault)
  /-- A part of an argument is no index. -/
  | badIndex (text : String) (fault : Text.NumeralFault)
  /-- An argument is no number. -/
  | badNumber (text : String)
  /-- An argument is no amount of energy. -/
  | badAmount (text : String) (fault : Text.NumeralFault)
  /-- There is no such command, or not with so many arguments. -/
  | unrecognized (line : String)
  /-- The bytes of the line are no text. -/
  | notText (fault : Text.Utf8Fault)
  /-- The command failed. -/
  | failed (fault : ExchangeFault)
deriving DecidableEq

/-- The wording of a fault. -/
def ScriptFault.message : ScriptFault → String
  | .badId text fault => s!"'{text}' is not a membrane id: {fault.message}"
  | .badShape text fault => s!"'{text}' is not a shape: {fault.message}"
  | .badIndex text fault => s!"'{text}' is not an index: {fault.message}"
  | .badNumber text => s!"'{text}' is not a number: invalid float literal"
  | .badAmount text fault => s!"'{text}' is not an energy amount: {fault.message}"
  | .unrecognized line => s!"unrecognized command '{line}'"
  | .notText fault => s!"line is not valid UTF-8: {fault.message}"
  | .failed fault => fault.message

namespace Script

/-! ### Arguments -/

/-- Reads an identifier. -/
def readId (word : List Char) : Except ScriptFault MembraneId :=
  (MembraneId.ofText word).mapError (.badId (String.ofList word))

/-- Reads a shape. -/
def readShape (word : List Char) : Except ScriptFault Shape :=
  (Shape.ofText word).mapError (.badShape (String.ofList word))

/-- Reads an index. -/
def readIndex (word : List Char) : Except ScriptFault UInt32 :=
  (Text.readUInt32 word).mapError (.badIndex (String.ofList word))

/-- Reads indices between commas; empty places between commas are skipped. -/
def readIndices (word : List Char) : Except ScriptFault (List UInt32) :=
  (Text.pieces (· = ',') word).mapM readIndex

/-- Reads a number. -/
def readNumber (word : List Char) : Except ScriptFault Binary32 :=
  match Binary32.ofText? word with
  | some value => .ok value
  | none => .error (.badNumber (String.ofList word))

/-- Reads an amount of energy. -/
def readAmount (word : List Char) : Except ScriptFault UInt32 :=
  (Text.readUInt32 word).mapError (.badAmount (String.ofList word))

end Script

open Script

/-- The command with a keyword and its arguments, `none` if there is none with so many arguments.
Arguments are read from left to right. -/
def Command.ofWords? (keyword : String) (arguments : List (List Char)) :
    Option (Except ScriptFault Command) :=
  match keyword, arguments with
  | "create", [shape] => some do return .create (← readShape shape)
  | "child", [owner, shape] => some do return .child (← readId owner) (← readShape shape)
  | "destroy", [id] => some do return .destroy (← readId id)
  | "reshape", [id, shape] | "resize", [id, shape] =>
    some do return .reshape (← readId id) (← readShape shape)
  | "add", [id, symbol] => some do return .add (← readId id) (String.ofList symbol)
  | "remove", [id, symbol] => some do return .remove (← readId id) (String.ofList symbol)
  | "transfer", [source, target, symbol] =>
    some do return .transfer (← readId source) (← readId target) (String.ofList symbol)
  | "get", [id, indices] => some do return .get (← readId id) (← readIndices indices)
  | "set", [id, indices, value] =>
    some do return .set (← readId id) (← readIndices indices) (← readNumber value)
  | "fill", [id, value] => some do return .fill (← readId id) (← readNumber value)
  | "energy", [id, amount] => some do return .energy (← readId id) (← readAmount amount)
  | "print", [] => some do return .print none
  | "print", [id] => some do return .print (some (← readId id))
  | "snapshot", [id] => some do return .snapshot (← readId id)
  | "sync", [target, source] => some do return .sync (← readId target) (← readId source)
  | "count", [] => some do return .count
  | _, _ => none

/-- The command on a line, `none` for an empty line or a comment. -/
def Command.ofText (s : List Char) : Except ScriptFault (Option Command) :=
  let line := Text.trim s
  if line.head? = some '#' then .ok none
  else
    match Text.words line with
    | [] => .ok none
    | keyword :: arguments =>
      match Command.ofWords? (String.ofList keyword) arguments with
      | some command => command.map some
      | none => .error (.unrecognized (String.ofList line))

end Membranes
