import Destructure.CommandLine.Intent

/-! # The program

Reads the value from where the request says, runs the request, and writes its outcome.
-/

namespace Destructure.CommandLine

def Source.read : Source → IO (Except Failure String)
  | .inline text => return .ok text
  | .file path => do
    try
      return .ok (← IO.FS.readFile path)
    catch _ =>
      return .error (.unreadable path)
  | .standardInput => do
    try
      return .ok (← (← IO.getStdin).readToEnd)
    catch _ =>
      return .error (.unreadable "stdin")

/-- Reads what the intent needs. -/
def Intent.read : Intent → IO (Except Failure String)
  | .run request => request.source.read
  | _ => return .ok ""

end Destructure.CommandLine

open Destructure.CommandLine in
def main (arguments : List String) : IO UInt32 := do
  let intent := Intent.ofArguments arguments
  let outcome := intent.outcome (← intent.read)
  IO.print outcome.output
  if let some message := outcome.error then
    IO.eprintln ("Error: " ++ message)
  return outcome.exitCode.toUInt32
