import Destructure.Pattern.Basic

/-! # Displayed patterns

The text in which a pattern is shown to a reader, which is a pattern text again.  A string stands
between double quotes, or between single quotes if it has a double quote in it.
-/

namespace Destructure.Pattern

def quoteOf (text : List Char) : Char :=
  if text.contains '"' then '\x27' else '"'

mutual
def display : Pattern → List Char
  | wildcard => ['_']
  | ident name => name.toList
  | bool true => ['t', 'r', 'u', 'e']
  | bool false => ['f', 'a', 'l', 's', 'e']
  | number n => n.display
  | str text => quoteOf text.toList :: text.toList ++ [quoteOf text.toList]
  | array items => '[' :: [',', ' '].intercalate (displayEach items) ++ [']']
  | cons heads tail => '(' :: [':'].intercalate (displayEach heads ++ [display tail]) ++ [')']
  | named name inner => name.toList ++ '@' :: display inner

def displayEach : List Pattern → List (List Char)
  | [] => []
  | p :: ps => display p :: displayEach ps
end

theorem displayEach_eq_map (ps : List Pattern) : displayEach ps = ps.map display := by
  induction ps with
  | nil => rfl
  | cons p ps ih => rw [displayEach, ih, List.map_cons]

instance : ToString Pattern := ⟨fun p => String.ofList p.display⟩

end Destructure.Pattern
