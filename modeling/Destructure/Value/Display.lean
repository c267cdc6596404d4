import Destructure.Value
import Destructure.Text.Quoted

/-! # Displayed values

The text in which a value is shown to a reader.  Strings are quoted, lists stand in square
brackets with a comma and a space between the items.
-/

namespace Destructure.Value

mutual
def display : Value → List Char
  | null => ['n', 'u', 'l', 'l']
  | bool true => ['t', 'r', 'u', 'e']
  | bool false => ['f', 'a', 'l', 's', 'e']
  | number n => n.display
  | str text => Text.displayString text.toList
  | list items => '[' :: [',', ' '].intercalate (displayEach items) ++ [']']

def displayEach : List Value → List (List Char)
  | [] => []
  | v :: vs => display v :: displayEach vs
end

instance : ToString Value := ⟨fun v => String.ofList v.display⟩

end Destructure.Value
