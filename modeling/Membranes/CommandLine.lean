import Membranes.Config.Document
import Membranes.Script.Session

/-!
# The command line

`Arguments.read` turns the arguments of the program into an `Invocation`, and `Invocation.respond` into
what the program writes and the code it ends with. Neither touches the world: the files come in as
a function from their names, and so does the input of the program.

Options are read level by level, those in front of the subcommand and those behind it. The options that
both levels know count at the deeper level. An argument that stands for itself, a value behind its
option or an operand, is judged only when the next option at its level comes or the level ends. So help
that is asked for in time hides what is wrong with it.
-/

namespace Membranes

/-! ### Requests -/

/-- What the program is asked to do. -/
inductive Request where
  /-- Run a script from a file, or from the input. -/
  | run (script : Option String)
  /-- Describe a shape. -/
  | shape (text : String)
  /-- Factorize a number. -/
  | factor (n : UInt32)
deriving DecidableEq, Repr

/-- A request and the name of the configuration file. -/
structure Invocation where
  /-- The name of the configuration file. -/
  config : String
  /-- What is asked for. -/
  request : Request
deriving DecidableEq, Repr

/-- A subcommand. -/
inductive Subcommand where
  | run
  | shape
  | factor
deriving DecidableEq, Repr

/-- The name of a subcommand. -/
def Subcommand.name : Subcommand → String
  | run => "run"
  | shape => "shape"
  | factor => "factor"

/-- The subcommand with a name. -/
def Subcommand.ofName? (name : String) : Option Subcommand :=
  [run, shape, factor].find? fun subcommand => subcommand.name == name

/-- What there is help on. -/
inductive HelpTopic where
  /-- The program. -/
  | program
  /-- A subcommand. -/
  | subcommand (known : Subcommand)
  /-- Asking for help. -/
  | help
deriving DecidableEq, Repr

/-- The topic of help that a level gives: its subcommand, and the program in front of that. -/
def HelpTopic.ofLevel : Option Subcommand → HelpTopic
  | none => program
  | some known => subcommand known

/-- Why arguments ask for nothing. -/
inductive ArgumentStop where
  /-- They are not what the program understands. -/
  | usage
  /-- They ask for help. -/
  | help (topic : HelpTopic)
deriving DecidableEq, Repr

/-! ### Options and operands -/

/-- An option that takes a value. -/
inductive ValueOption where
  /-- The name of the configuration file. -/
  | config
  /-- The name of the script. -/
  | script
deriving DecidableEq, Repr

/-- What was read last and is not judged yet. -/
inductive Pending where
  /-- An option whose value comes next. -/
  | option (option : ValueOption)
  /-- An option with the argument behind it. -/
  | value (option : ValueOption) (text : String)
  /-- An argument that belongs to no option. -/
  | operand (text : String)
deriving DecidableEq, Repr

/-- What one level of arguments gave so far. -/
structure Level where
  /-- The subcommand whose arguments these are; in front of it there is none. -/
  subcommand : Option Subcommand
  /-- Whether verbosity was asked for. -/
  verbose : Bool
  /-- The configuration file. -/
  config : Option String
  /-- The script file. -/
  script : Option String
  /-- What the operand asks for. -/
  operand : Option Request
  /-- What is not judged yet. -/
  pending : Option Pending
deriving DecidableEq, Repr

/-- Reads a whole number with a sign that fits 64 bits, and keeps it if it fits 32 bits without. -/
def readFactor (s : List Char) : Option UInt32 :=
  let (negative, digits) := splitSign s
  match digits, Text.readDigits UInt64.size 0 digits with
  | _ :: _, .ok n =>
    if n < UInt32.size ∧ (negative = false ∨ n = 0) then some (UInt32.ofNat n) else none
  | _, _ => none

/-- What a subcommand is asked for by its operand. -/
def Subcommand.operandRequest? (text : String) : Subcommand → Option Request
  | run => none
  | shape => some (.shape text)
  | factor => (readFactor text.toList).map .factor

namespace Level

/-- A level of which nothing is read yet. -/
def start (subcommand : Option Subcommand) : Level := ⟨subcommand, false, none, none, none, none⟩

variable (level : Level)

/-- The option with a long name at this level. -/
def valueOption? (name : String) : Option ValueOption :=
  if name = "config" then some .config
  else if name = "script" ∧ level.subcommand = some .run then some .script
  else none

/-- The option with a letter at this level. -/
def letterOption? (letter : Char) : Option ValueOption :=
  if letter = 'c' then some .config
  else if letter = 's' ∧ level.subcommand = some .run then some .script
  else none

/-- The level with verbosity asked for, which can be done once. -/
def setVerbose : Except ArgumentStop Level :=
  if level.verbose then .error .usage else .ok { level with verbose := true }

/-- The level with the value of an option, which is not empty and is given once. -/
def setValue (option : ValueOption) (text : String) : Except ArgumentStop Level :=
  if text.isEmpty then .error .usage
  else
    match option with
    | .config =>
      if level.config.isSome then .error .usage else .ok { level with config := some text }
    | .script =>
      if level.script.isSome then .error .usage else .ok { level with script := some text }

/-- The level with an operand, which its subcommand must understand and which is given once. -/
def setOperand (text : String) : Except ArgumentStop Level :=
  match level.subcommand.bind (·.operandRequest? text), level.operand with
  | some request, none => .ok { level with operand := some request }
  | _, _ => .error .usage

/-- The level with its pending argument judged. -/
def settle : Except ArgumentStop Level :=
  let settled : Level := { level with pending := none }
  match level.pending with
  | none => .ok settled
  | some (.option _) => .error .usage
  | some (.value option text) => settled.setValue option text
  | some (.operand text) => settled.setOperand text

/-- The level waiting for the value of an option. -/
def await (option : ValueOption) : Level := { level with pending := some (.option option) }

/-- The level after an argument that is no option: the value that an option waits for, or an operand. -/
def take (text : String) : Except ArgumentStop Level :=
  match level.pending with
  | some (.option option) => .ok { level with pending := some (.value option text) }
  | _ => do return { ← level.settle with pending := some (.operand text) }

/-- The level after an argument `--name` or `--name=value`. -/
def readLong (argument : List Char) : Except ArgumentStop Level :=
  let name := String.ofList (argument.takeWhile (· ≠ '='))
  match argument.dropWhile (· ≠ '='), level.valueOption? name with
  | _ :: value, some option => level.setValue option (String.ofList value)
  | [], some option => .ok (level.await option)
  | [], none =>
    if name = "verbose" then level.setVerbose
    else if name = "help" then .error (.help (.ofLevel level.subcommand))
    else .error .usage
  | _ :: _, none => .error .usage

/-- The level after the letters of an argument `-letters`. The first letter of an option with a value
ends the letters; what follows it is the value. -/
def readLetters (level : Level) : List Char → Except ArgumentStop Level
  | [] => .ok level
  | letter :: letters =>
    if letter = 'v' then do (← level.setVerbose).readLetters letters
    else if letter = 'h' then .error (.help (.ofLevel level.subcommand))
    else
      match level.letterOption? letter, letters with
      | none, _ => .error .usage
      | some option, [] => .ok (level.await option)
      | some option, '=' :: value => level.setValue option (String.ofList value)
      | some option, value => level.setValue option (String.ofList value)

end Level

namespace Arguments

/-! ### Levels -/

/-- The level after arguments that are no options, to its end. -/
def readOperands (level : Level) : List String → Except ArgumentStop Level
  | [] => .ok level
  | operand :: operands => do readOperands (← level.setOperand operand) operands

/-- The help that `help` with further arguments asks for. -/
def helpStop : List String → ArgumentStop
  | [] => .help .program
  | [topic] =>
    match Subcommand.ofName? topic with
    | some known => .help (.subcommand known)
    | none => if topic = "help" then .help .help else .usage
  | _ => .usage

/-- Reads the arguments of a level. In front of the subcommand the first argument that is neither
option nor value names it; the arguments behind it are returned, and what is pending stays so. -/
def readLevel (level : Level) :
    List String → Except ArgumentStop (Level × Option (Subcommand × List String))
  | [] => do return (← level.settle, none)
  | argument :: rest =>
    match argument.toList with
    | ['-', '-'] => do return (← readOperands (← level.settle) rest, none)
    | '-' :: '-' :: long => do readLevel (← (← level.settle).readLong long) rest
    | '-' :: letter :: letters => do
      readLevel (← (← level.settle).readLetters (letter :: letters)) rest
    | _ =>
      match level.subcommand, level.pending with
      | some _, _ | none, some (.option _) => do readLevel (← level.take argument) rest
      | none, _ =>
        if argument = "help" then .error (helpStop rest)
        else
          match Subcommand.ofName? argument with
          | some subcommand => .ok (level, some (subcommand, rest))
          | none => .error .usage

/-- The request of a subcommand with its arguments. -/
def request (subcommand : Subcommand) (level : Level) : Except ArgumentStop Request :=
  match subcommand, level.operand with
  | .run, _ => .ok (.run level.script)
  | _, some request => .ok request
  | _, none => .error .usage

/-- Reads the arguments of the program. What is pending in front of the subcommand is judged last. -/
def read (arguments : List String) : Except ArgumentStop Invocation := do
  match ← readLevel (.start none) arguments with
  | (_, none) => .error .usage
  | (outer, some (subcommand, rest)) =>
    let (inner, _) ← readLevel (.start (some subcommand)) rest
    let outer ← outer.settle
    let config := (inner.config <|> outer.config).getD "membrane.toml"
    return { config, request := ← request subcommand inner }

end Arguments

/-! ### Responses -/

/-- How the program ends. -/
structure Response where
  /-- The exit code: 0 for success, 1 for a request that failed, 2 for arguments not understood. -/
  code : UInt8
  /-- What is written. -/
  output : String
deriving DecidableEq, Repr

namespace Response

/-- A success. -/
def ok (output : String) : Response := ⟨0, output⟩

/-- A request that failed. -/
def failed : Response := ⟨1, ""⟩

/-- Arguments that were not understood. -/
def misunderstood : Response := ⟨2, ""⟩

end Response

/-- The help on a topic. -/
def helpText : HelpTopic → String
  | .program =>
    "Membrane - prime-factorized tensor membrane store\n\n" ++
    "Usage: membrane [OPTIONS] <COMMAND>\n\n" ++
    "Commands:\n" ++
    "  run     Run store commands from a script, or from stdin\n" ++
    "  shape   Show rank, volume and strides of a shape such as 2,3,5\n" ++
    "  factor  Factorize a positive integer into primes\n" ++
    "  help    Print this message or the help of the given subcommand(s)\n\n" ++
    "Options:\n" ++
    "  -v, --verbose          Enable verbose logging\n" ++
    "  -c, --config <CONFIG>  Config file path [default: membrane.toml]\n" ++
    "  -h, --help             Print help\n"
  | .subcommand .run =>
    "Run store commands from a script, or from stdin\n\n" ++
    "Usage: membrane run [OPTIONS]\n\n" ++
    "Options:\n" ++
    "  -s, --script <SCRIPT>  Script file, one command per line\n" ++
    "  -v, --verbose          Enable verbose logging\n" ++
    "  -c, --config <CONFIG>  Config file path [default: membrane.toml]\n" ++
    "  -h, --help             Print help\n"
  | .subcommand .shape =>
    "Show rank, volume and strides of a shape such as 2,3,5\n\n" ++
    "Usage: membrane shape [OPTIONS] <PRIMES>\n\n" ++
    "Arguments:\n" ++
    "  <PRIMES>  Comma-separated axis sizes\n\n" ++
    "Options:\n" ++
    "  -v, --verbose          Enable verbose logging\n" ++
    "  -c, --config <CONFIG>  Config file path [default: membrane.toml]\n" ++
    "  -h, --help             Print help\n"
  | .subcommand .factor =>
    "Factorize a positive integer into primes\n\n" ++
    "Usage: membrane factor [OPTIONS] <N>\n\n" ++
    "Arguments:\n" ++
    "  <N>  Number to factorize\n\n" ++
    "Options:\n" ++
    "  -v, --verbose          Enable verbose logging\n" ++
    "  -c, --config <CONFIG>  Config file path [default: membrane.toml]\n" ++
    "  -h, --help             Print help\n"
  | .help =>
    "Print this message or the help of the given subcommand(s)\n\n" ++
    "Usage: membrane help [COMMAND]...\n\n" ++
    "Arguments:\n" ++
    "  [COMMAND]...  Print help for the subcommand(s)\n"

/-- What is written for a text that may be a shape. -/
def shapeReport (text : String) : Except ScriptFault String :=
  (Script.readShape text.toList).map Shape.report

/-- What is written for a number. -/
def factorReport (n : UInt32) : Except ScriptFault String :=
  (Shape.factorReport n).mapError fun fault => .failed (.refused (.shape fault))

namespace Invocation

/-- The files that an invocation reads. -/
def fileNames (invocation : Invocation) : List String :=
  match invocation.request with
  | .run script => invocation.config :: script.toList
  | _ => []

/-- Whether an invocation reads the input of the program. -/
def readsInput (invocation : Invocation) : Bool := invocation.request == .run none

/-- What a script file or the input writes under a configuration. A file that cannot be read is
a failure. -/
def runScript (config : SessionConfig) (entropy : UInt64) : FileContent → Response
  | .bytes script => .ok (Script.run config entropy script).output
  | _ => .failed

/-- The response to an invocation, with the files by their names and the input of the program. -/
def respond (invocation : Invocation) (files : String → FileContent) (input : FileContent)
    (entropy : UInt64) : Response :=
  match invocation.request with
  | .run script =>
    match SessionConfig.ofFile (files invocation.config) with
    | .ok config => runScript config entropy (script.elim input files)
    | .error _ => .failed
  | .shape text => (shapeReport text).toOption.elim .failed .ok
  | .factor n => (factorReport n).toOption.elim .failed .ok

end Invocation

/-- The response to arguments that ask for nothing. -/
def ArgumentStop.response : ArgumentStop → Response
  | .usage => .misunderstood
  | .help topic => .ok (helpText topic)

end Membranes
