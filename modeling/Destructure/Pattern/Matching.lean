import Destructure.Bindings
import Destructure.Pattern.Basic

/-! # Matching a value against a pattern

A match has three outcomes: the value fits and gives bindings, it does not fit, or the pattern binds
a name twice, which is an error.  The parts of a pattern are matched in order and their bindings
merged as they come, so a part that does not fit hides every error after it.
-/

namespace Destructure.Pattern

/-- No bindings if the two values are equal, and no fit otherwise. -/
def matchLiteral (literal value : Value) : Option Bindings :=
  if value == literal then some .empty else none

mutual
/-- The bindings of a value that fits the pattern, or nothing if it does not fit. -/
def destructure : Pattern → Value → Except MatchError (Option Bindings)
  | wildcard, _ => .ok (some .empty)
  | ident name, value => .ok (some (.single name value))
  | bool b, value => .ok (matchLiteral (.bool b) value)
  | number n, value => .ok (matchLiteral (.number n) value)
  | str text, value => .ok (matchLiteral (.str text) value)
  | array items, .list values =>
    if values.length = items.length then destructureEach items values .empty else .ok none
  | array _, _ => .ok none
  | cons heads tail, .list values =>
    if heads.length ≤ values.length then
      match destructureEach heads (values.take heads.length) .empty with
      | .error e => .error e
      | .ok none => .ok none
      | .ok (some front) =>
        match destructure tail (.list (values.drop heads.length)) with
        | .error e => .error e
        | .ok none => .ok none
        | .ok (some back) => (front.merge back).map some
    else
      .ok none
  | cons _ _, _ => .ok none
  | named name inner, value =>
    match destructure inner value with
    | .error e => .error e
    | .ok none => .ok none
    | .ok (some bound) => ((Bindings.single name value).merge bound).map some

/-- Matches patterns and values pairwise, and merges what each pair gives into the bindings of the
pairs before it. -/
def destructureEach : List Pattern → List Value → Bindings → Except MatchError (Option Bindings)
  | p :: ps, v :: vs, bound =>
    match destructure p v with
    | .error e => .error e
    | .ok none => .ok none
    | .ok (some more) =>
      match bound.merge more with
      | .error e => .error e
      | .ok bound => destructureEach ps vs bound
  | _, _, bound => .ok (some bound)
end

end Destructure.Pattern
