import Membranes.CommandLine

/-!
# The program

The outer layer of the command line: it collects arguments, files, input and entropy, asks
`Invocation.respond` for the response, and writes it.
-/

namespace Membranes

/-- Reads a file, or finds out why not. -/
def readFileContent (name : String) : IO FileContent := do
  try
    return .bytes (← IO.FS.readBinFile name).toList
  catch
    | .noFileOrDirectory .. => return .missing
    | _ => return .unreadable

/-- A number that nobody can foresee. -/
def drawEntropy : IO UInt64 := do
  return UInt64.ofNat (ofLittleEndian (← IO.getRandomBytes 8).toList)

/-- Collects what an invocation reads, and responds. -/
def serve (invocation : Invocation) : IO Response := do
  let files ← invocation.fileNames.mapM fun name => return (name, ← readFileContent name)
  let input ←
    if invocation.readsInput then pure (← (← IO.getStdin).readBinToEnd).toList else pure []
  let find (name : String) : FileContent := (files.lookup name).getD .missing
  return invocation.respond find (.bytes input) (← drawEntropy)

end Membranes

open Membranes

/-- Runs the program. -/
def main (arguments : List String) : IO UInt32 := do
  let response ←
    match Arguments.read arguments with
    | .ok invocation => serve invocation
    | .error stop => pure stop.response
  (← IO.getStdout).putStr response.output
  return response.code.toUInt32
