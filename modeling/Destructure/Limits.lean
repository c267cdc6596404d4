import Destructure.Pattern.Matching
import Destructure.Pattern.Parser

/-! # Limits on pattern texts

Patterns from untrusted sources are read under limits on the length of the text and on the depth of
the pattern.  A text that is too long is refused before it is looked at.
-/

namespace Destructure

/-- Bounds on a pattern text; a bound that is left out admits everything. -/
structure Limits where
  /-- How deep a pattern may stand in another. -/
  maxDepth : Option Nat := none
  /-- How many bytes the text may have in UTF-8. -/
  maxLength : Option Nat := none
  deriving DecidableEq, Repr

namespace Limits

def unlimited : Limits := ⟨none, none⟩

/-- The pattern that a text denotes. -/
def compile (limits : Limits) (text : String) : Except MatchError Pattern :=
  match limits.maxLength.filter (· < text.utf8ByteSize) with
  | some limit => .error (.lengthLimit limit text.utf8ByteSize)
  | none => Pattern.parseAt limits.maxDepth 0 text.toList

/-- Matches a value against the pattern that a text denotes. -/
def destructure (limits : Limits) (text : String) (value : Value) :
    Except MatchError (Option Bindings) :=
  match limits.compile text with
  | .error e => .error e
  | .ok pattern => pattern.destructure value

end Limits

/-- Matches a value against the pattern that a text denotes, and gives the bindings by name. -/
def extract (text : String) (value : Value) :
    Except MatchError (Option (Std.TreeMap String Value)) :=
  (Limits.unlimited.destructure text value).map (Option.map Bindings.toMap)

end Destructure
