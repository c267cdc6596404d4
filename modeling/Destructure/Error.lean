/-! # Errors of reading and matching patterns

A value that merely does not fit a pattern is no error.  What is one: a text that is no pattern or
goes past a limit, a match that binds a name twice, and a value that no arm of a dispatcher fits.
-/

namespace Destructure

/-- Why a pattern could not be read or matched. -/
inductive MatchError where
  /-- No shape of pattern fits this trimmed text, which may be a piece of the text that was given. -/
  | invalidPattern (text : String)
  /-- These names are bound a second time. -/
  | duplicateBinding (names : List String)
  /-- No arm fits the value. -/
  | nonExhaustive
  /-- A pattern stands deeper in another than the limit allows. -/
  | depthLimit (limit : Nat)
  /-- The text has more bytes in UTF-8 than the limit allows. -/
  | lengthLimit (limit : Nat) (length : Nat)
  deriving DecidableEq, Repr

def MatchError.message : MatchError → String
  | invalidPattern text => "invalid pattern \"" ++ text ++ "\""
  | duplicateBinding names => "non unique identifiers: " ++ ", ".intercalate names
  | nonExhaustive => "non-exhaustive patterns"
  | depthLimit limit => "pattern nesting exceeds the limit of " ++ toString limit
  | lengthLimit limit length =>
    "pattern text is " ++ toString length ++ " bytes, over the limit of " ++ toString limit

end Destructure
