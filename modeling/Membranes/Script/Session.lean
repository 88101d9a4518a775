import Membranes.Exchange.Engine
import Membranes.Script.Command
import Membranes.Store.Rendering

/-!
# Script sessions

A session is a store with an engine that has no peers. It runs the lines of a script one after the
other. A line that fails is reported with its number and leaves the session as it was.
-/

namespace Membranes

/-- A store and the engine behind the synchronization command. -/
structure Session where
  /-- The store. -/
  store : Store
  /-- The engine. -/
  engine : Engine NoPeers
deriving DecidableEq

/-- What a reply prints. -/
def Reply.toText : Reply → String
  | .done => ""
  | .created id => toString id.value
  | .released ids => s!"destroyed {ids.length}"
  | .energy left => toString left
  | .element value => value.toText .plain
  | .found present => toString present
  | .symbols held => Text.joined " " held

namespace Session

/-- A session without membranes. -/
def ofConfig (config : SessionConfig) (entropy : UInt64) : Session where
  store := .empty config.store entropy
  engine := .ofPolicy config.sync {}

variable (session : Session)

/-! ### Commands -/

/-- Carries out an operation on the store. The engine forgets what was destroyed. -/
def operate (operation : Operation) : Except ScriptFault String × Session :=
  let outcome := operation.run session.store
  match outcome.answer with
  | .error refusal => (.error (.failed (.refused refusal)), { session with store := outcome.store })
  | .ok reply =>
    let engine := match reply with
      | .released ids => ids.foldl Engine.forget session.engine
      | _ => session.engine
    (.ok reply.toText, ⟨outcome.store, engine⟩)

/-- Asks the store for a text. -/
def ask (answer : Except Refusal String) : Except ScriptFault String × Session :=
  (answer.mapError fun refusal => .failed (.refused refusal), session)

/-- Brings the snapshot of one membrane into another. -/
def sync (target source : MembraneId) : Except ScriptFault String × Session :=
  match session.store.snapshot source with
  | .error refusal => (.error (.failed (.refused refusal)), session)
  | .ok remote =>
    let delivery := session.engine.receive session.store target remote
    let text := delivery.answer.map fun receipt =>
      s!"{receipt.decision.toText} version={receipt.version} checksum={Text.hex8 receipt.checksum}"
    (text.mapError .failed, ⟨delivery.store, delivery.engine⟩)

/-- Runs a command and answers what it prints. -/
def perform : Command → Except ScriptFault String × Session
  | .create shape => session.operate (.create shape)
  | .child owner shape => session.operate (.createUnder owner shape)
  | .destroy id => session.operate (.destroy id)
  | .reshape id shape => session.operate (.reshape id shape)
  | .add id symbol => session.operate (.addSymbol id symbol)
  | .remove id symbol => session.operate (.removeSymbol id symbol)
  | .transfer source target symbol => session.operate (.moveSymbol source target symbol)
  | .get id indices => session.operate (.get id indices)
  | .set id indices value => session.operate (.set id indices value)
  | .fill id value => session.operate (.fill id value)
  | .energy id amount => session.operate (.spendEnergy id amount)
  | .print (some id) => session.ask (session.store.subtreeText id)
  | .print none => session.ask (.ok session.store.toText)
  | .snapshot id => session.ask ((session.store.snapshot id).map Snapshot.toText)
  | .sync target source => session.sync target source
  | .count => session.ask (.ok (toString session.store.size))

/-! ### Lines -/

/-- Runs one line and answers what it prints, `none` if it holds no command. -/
def runLine (line : List Char) : Except ScriptFault (Option String) × Session :=
  match Command.ofText line with
  | .error fault => (.error fault, session)
  | .ok none => (.ok none, session)
  | .ok (some command) =>
    let (answer, session) := session.perform command
    (answer.map some, session)

/-- Runs one line of bytes. -/
def runBytes (line : List UInt8) : Except ScriptFault (Option String) × Session :=
  match Text.decode line with
  | .error fault => (.error (.notText fault), session)
  | .ok line => session.runLine line

/-- Runs lines of bytes one after the other and answers what came of each. -/
def run : Session → List (List UInt8) → List (Except ScriptFault (Option String)) × Session
  | session, [] => ([], session)
  | session, line :: lines =>
    let (result, session) := session.runBytes line
    let (results, session) := run session lines
    (result :: results, session)

end Session

namespace Script

/-! ### Scripts -/

/-- Puts a byte in front of lines that are already cut. -/
def lineStep (b : UInt8) : List (List UInt8) → List (List UInt8)
  | [] => [[b]]
  | line :: lines => if b = 10 then [b] :: line :: lines else (b :: line) :: lines

/-- The lines of a script, each with the line feed that ends it. -/
def lines (script : List UInt8) : List (List UInt8) := script.foldr lineStep []

/-- A text as a block of lines: nothing, or a text that ends with a line feed. -/
def block (text : String) : String :=
  if text.isEmpty || text.endsWith "\n" then text else text ++ "\n"

/-- What is written for the result of the line with a number. -/
def report (number : Nat) : Except ScriptFault (Option String) → String
  | .ok none => ""
  | .ok (some text) => block text
  | .error fault => s!"error (line {number}): {fault.message}\n"

/-- What is written for results from the line with a number on. -/
def reportsFrom (number : Nat) : List (Except ScriptFault (Option String)) → List String
  | [] => []
  | result :: results => report number result :: reportsFrom (number + 1) results

/-- Whether a line ran a command. -/
def isExecuted : Except ScriptFault (Option String) → Bool
  | .ok (some _) => true
  | _ => false

/-- Whether a line failed. -/
def isFailed : Except ScriptFault (Option String) → Bool
  | .error _ => true
  | _ => false

/-- What came of a script. -/
structure Summary where
  /-- What was written. -/
  output : String
  /-- The number of commands that ran. -/
  executed : Nat
  /-- The number of lines that failed. -/
  failed : Nat
deriving DecidableEq, Repr

/-- Runs a script in a new session. -/
def run (config : SessionConfig) (entropy : UInt64) (script : List UInt8) : Summary :=
  let (results, _) := (Session.ofConfig config entropy).run (lines script)
  { output := Text.joined "" (reportsFrom 1 results)
    executed := results.countP isExecuted
    failed := results.countP isFailed }

end Script

end Membranes
