import Destructure.Number

/-! # Values

The values that patterns are matched against.  `==` compares numbers by value, wherever they stand
in the two values; `=` is identity.
-/

namespace Destructure

/-- A dynamically typed value. -/
inductive Value where
  | null
  | bool (value : Bool)
  | number (value : Number)
  | str (text : String)
  | list (items : List Value)

namespace Value

instance : Inhabited Value := ⟨null⟩

mutual
/-- Equality up to the value of numbers. -/
def beq : Value → Value → Bool
  | null, null => true
  | bool a, bool b => a == b
  | number m, number n => m == n
  | str s, str t => s == t
  | list vs, list ws => beqItems vs ws
  | _, _ => false

/-- Equality of lists of one length, item by item. -/
def beqItems : List Value → List Value → Bool
  | [], [] => true
  | v :: vs, w :: ws => beq v w && beqItems vs ws
  | _, _ => false
end

instance : BEq Value := ⟨beq⟩

def items? : Value → Option (List Value)
  | list items => some items
  | _ => none

def ofInt64 (i : Int64) : Value :=
  number (.int i)

def ofInt32 (i : Int32) : Value :=
  ofInt64 i.toInt64

def ofBinary64 (x : Binary64) : Value :=
  number (.float x)

/-- The list of the values that `f` gives. -/
def ofList {α : Type} (f : α → Value) (items : List α) : Value :=
  list (items.map f)

end Value

end Destructure
