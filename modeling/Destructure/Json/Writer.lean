import Destructure.Json.Quoted
import Destructure.Value

/-! # Values written as JSON

Values are written without spaces.  Floating point numbers have the fewest digits that read back.
They are written positionally while their first digit stands between the fifth place after the
point and the sixteenth before it, and with a power of ten otherwise.  What is not finite has no
number in JSON and becomes `null`.
-/

namespace Destructure.Json

/-- A finite number as a decimal. -/
def layout (d : Decimal) : List Char :=
  if -5 ≤ d.leadingExponent ∧ d.leadingExponent < 16 then d.positional else d.scientific

def writeNumber : Number → List Char
  | .int i => Decimal.integer i.toInt
  | .float (.finite negative rank) => layout (Binary64.shortest .even negative rank)
  | .float _ => ['n', 'u', 'l', 'l']

mutual
def write : Value → List Char
  | .null => ['n', 'u', 'l', 'l']
  | .bool true => ['t', 'r', 'u', 'e']
  | .bool false => ['f', 'a', 'l', 's', 'e']
  | .number n => writeNumber n
  | .str text => encode text.toList
  | .list items => '[' :: [','].intercalate (writeEach items) ++ [']']

def writeEach : List Value → List (List Char)
  | [] => []
  | v :: vs => write v :: writeEach vs
end

theorem writeEach_eq_map (vs : List Value) : writeEach vs = vs.map write := by
  induction vs with
  | nil => rfl
  | cons v vs ih => rw [writeEach, ih, List.map_cons]

/-- An object, its members in the given order. -/
def writeObject (members : List (String × List Char)) : List Char :=
  '\x7b' :: [','].intercalate (members.map fun (name, text) =>
    encode name.toList ++ ':' :: text) ++ ['\x7d']

end Destructure.Json
