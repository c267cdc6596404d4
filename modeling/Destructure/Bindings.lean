import Destructure.Error
import Destructure.Json.Writer
import Std.Data.TreeMap

/-! # Bindings

What a match gives: names with the values they are bound to, in the order in which the pattern
binds them.  The sequence is the whole of it; looking up a name and the map by names are views.

Bindings are built from single ones by merging, which refuses to bind a name twice.
-/

namespace Destructure

/-- Names and their values in binding order. -/
structure Bindings where
  entries : List (String × Value)

namespace Bindings

/-- Equal names in equal order, with values that are equal up to the value of numbers. -/
instance : BEq Bindings := ⟨fun b c => b.entries == c.entries⟩

def empty : Bindings := ⟨[]⟩

def single (name : String) (value : Value) : Bindings := ⟨[(name, value)]⟩

def size (b : Bindings) : Nat := b.entries.length

def isEmpty (b : Bindings) : Bool := b.entries.isEmpty

def names (b : Bindings) : List String := b.entries.map Prod.fst

def values (b : Bindings) : List Value := b.entries.map Prod.snd

/-- The value that a name is bound to first. -/
def get? (b : Bindings) (name : String) : Option Value := b.entries.lookup name

def contains (b : Bindings) (name : String) : Bool := (b.get? name).isSome

/-- The values by name, where a later value of a name replaces an earlier one. -/
def toMap (b : Bindings) : Std.TreeMap String Value := .ofList b.entries

/-- The names of the second that the first binds too, in the order of the second. -/
def shared (b c : Bindings) : List String := c.names.filter b.contains

/-- The second after the first, if they share no name. -/
def merge (b c : Bindings) : Except MatchError Bindings :=
  if (b.shared c).isEmpty then
    .ok ⟨b.entries ++ c.entries⟩
  else
    .error (.duplicateBinding (b.shared c))

/-- The object with a member for each name, in binding order. -/
def toJson (b : Bindings) : List Char :=
  Json.writeObject (b.entries.map fun (name, value) => (name, Json.write value))

@[simp] theorem names_single (name : String) (value : Value) :
    (single name value).names = [name] := rfl

end Bindings

end Destructure
