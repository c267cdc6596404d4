import Destructure.Number

/-! # Patterns

A pattern describes a set of values and names parts of them.  `==` compares numbers by value,
wherever they stand in the two patterns; `=` is identity.
-/

namespace Destructure

inductive Pattern where
  /-- Fits every value and names nothing. -/
  | wildcard
  /-- Fits every value and names it. -/
  | ident (name : String)
  /-- Fits one of the two truth values. -/
  | bool (value : Bool)
  /-- Fits the numbers of one value. -/
  | number (value : Number)
  /-- Fits one string. -/
  | str (text : String)
  /-- Fits the lists whose items fit one by one. -/
  | array (items : List Pattern)
  /-- Fits the lists whose first items fit the heads and whose other items fit the tail as a list. -/
  | cons (heads : List Pattern) (tail : Pattern)
  /-- Fits what the inner pattern fits and names the whole value as well. -/
  | named (name : String) (inner : Pattern)

namespace Pattern

instance : Inhabited Pattern := ⟨wildcard⟩

mutual
/-- Equality up to the value of numbers. -/
def beq : Pattern → Pattern → Bool
  | wildcard, wildcard => true
  | ident x, ident y => x == y
  | bool a, bool b => a == b
  | number m, number n => m == n
  | str s, str t => s == t
  | array ps, array qs => beqEach ps qs
  | cons hs t, cons ks u => beqEach hs ks && beq t u
  | named x p, named y q => x == y && beq p q
  | _, _ => false

/-- Equality of lists of one length, pattern by pattern. -/
def beqEach : List Pattern → List Pattern → Bool
  | [], [] => true
  | p :: ps, q :: qs => beq p q && beqEach ps qs
  | _, _ => false
end

instance : BEq Pattern := ⟨beq⟩

end Pattern

end Destructure
