import Destructure.Dispatcher
import Destructure.Json.Reader

/-! # Requests and their outcomes

A request asks for a value to be matched, against one pattern or against patterns in order.  Its
outcome is what a process leaves behind: an exit code, a text on standard output, and the message
of an error if there was one.

The value is read before any pattern is, so a refused value hides a refused pattern.
-/

namespace Destructure.CommandLine

inductive Command where
  /-- Match one pattern and print its bindings, or `false`. -/
  | extract (pattern : String)
  /-- Try patterns in order and report the first one that fits. -/
  | firstMatch (patterns : List String)
  deriving DecidableEq, Repr

/-- Where the text of the value comes from. -/
inductive Source where
  /-- The text itself. -/
  | inline (text : String)
  /-- A file. -/
  | file (path : String)
  | standardInput
  deriving DecidableEq, Repr

/-- All that a run depends on, apart from the text of the value. -/
structure Request where
  command : Command
  source : Source
  limits : Limits
  deriving DecidableEq, Repr

/-- Why a request ends without an answer. -/
inductive Failure where
  /-- The text of the value cannot be had from here. -/
  | unreadable (place : String)
  /-- The text denotes no value. -/
  | invalidValue
  /-- A pattern is refused, or no pattern fits. -/
  | matching (error : MatchError)
  deriving DecidableEq, Repr

def Failure.message : Failure → String
  | unreadable place => "reading " ++ place
  | invalidValue => "value must be JSON null, bool, number, string or array"
  | matching error => error.message

/-- What a run leaves behind. -/
structure Outcome where
  exitCode : UInt8
  output : String
  error : Option String
  deriving DecidableEq, Repr

namespace Outcome

/-- A line of output and success. -/
def answer (line : List Char) : Outcome := ⟨0, String.ofList (line ++ ['\n']), none⟩

def mismatch : Outcome := ⟨1, "false\n", none⟩

/-- A failure, which has no output. -/
def failure (f : Failure) : Outcome := ⟨1, "", some f.message⟩

/-- Arguments that make no request. -/
def usage : Outcome := ⟨2, "", none⟩

/-- A text about the program, which comes from its build and is left out. -/
def information : Outcome := ⟨0, "", none⟩

end Outcome

/-- The report on the pattern that fits: its place among the patterns, its text and its bindings. -/
def report (arm : Nat) (pattern : String) (bound : Bindings) : List Char :=
  Json.writeObject [
    ("arm", Decimal.digits arm),
    ("pattern", Json.encode pattern.toList),
    ("bindings", bound.toJson)]

/-- The dispatcher that reports which of the patterns fits. -/
def reporter (limits : Limits) (patterns : List String) : Dispatcher (List Char) :=
  patterns.zipIdx.foldl (fun d (pattern, arm) => d.on pattern (report arm pattern)) (.empty limits)

def Command.run (limits : Limits) (value : Value) : Command → Outcome
  | extract pattern =>
    match limits.destructure pattern value with
    | .error e => .failure (.matching e)
    | .ok none => .mismatch
    | .ok (some bound) => .answer bound.toJson
  | firstMatch patterns =>
    match (reporter limits patterns).dispatch value with
    | .error e => .failure (.matching e)
    | .ok line => .answer line

def Request.run (r : Request) (text : Except Failure String) : Outcome :=
  match text with
  | .error f => .failure f
  | .ok text =>
    match Json.read? text with
    | none => .failure .invalidValue
    | some value => r.command.run r.limits value

end Destructure.CommandLine
