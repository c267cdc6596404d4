import Destructure.CommandLine.Arguments

/-! # Outcomes of intents

Every intent has an outcome.  Asking for help or for the version succeeds; arguments that make no
request have an exit code of their own.
-/

namespace Destructure.CommandLine

def versionLine : List Char :=
  "patmatch 0.1.0".toList

/-- The outcome of what the arguments ask for, given the text of the value. -/
def Intent.outcome (text : Except Failure String) : Intent → Outcome
  | .run request => request.run text
  | .help => .information
  | .version true => .information
  | .version false => .answer versionLine
  | .refused => .usage

end Destructure.CommandLine
