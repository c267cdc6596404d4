import Destructure.Json.Token
import Destructure.Value

/-! # Values read from JSON text

A reader takes the tokens of a text one after the other.  Its state holds the arrays that are still
open, the innermost first, each with its items so far in reverse order.  Arrays may nest 127 deep.
Objects have no tokens, so a text that holds one is refused.
-/

namespace Destructure.Json

/-- Where a reader stands between two tokens. -/
inductive State where
  /-- A value must come. -/
  | value (frames : List (List Value))
  /-- An array has just been opened: its first item or its end must come. -/
  | first (frames : List (List Value))
  /-- A value has just ended. -/
  | after (frames : List (List Value)) (value : Value)

def maxNesting : Nat := 127

/-- Starts a value within the open arrays. -/
def State.start (frames : List (List Value)) : Token → Option State
  | .null => some (after frames .null)
  | .bool b => some (after frames (.bool b))
  | .number n => some (after frames (.number n))
  | .str text => some (after frames (.str text))
  | .opening => if frames.length < maxNesting then some (first frames) else none
  | .comma => none
  | .closing => none

def State.step : State → Token → Option State
  | value frames, token => start frames token
  | first frames, .closing => some (after frames (.list []))
  | first frames, token => start ([] :: frames) token
  | after (items :: frames) v, .comma => some (value ((v :: items) :: frames))
  | after (items :: frames) v, .closing => some (after frames (.list (v :: items).reverse))
  | after _ _, _ => none

/-- The value that has been read, if all arrays are closed. -/
def State.result? : State → Option Value
  | after [] v => some v
  | _ => none

def ofTokens? (tokens : List Token) : Option Value :=
  (tokens.foldlM State.step (.value [])).bind State.result?

/-- The value that a text denotes. -/
def read? (text : String) : Option Value :=
  (tokens? text.toList).bind ofTokens?

end Destructure.Json
