import Destructure.Binary64.Shortest
import Destructure.Numeral

/-! # Numbers

A number is a 64-bit integer or a binary floating point number.  Numbers compare by value, so an
integer equals the floating point number that denotes it, and no rounding takes part in the
comparison.  `=` also tells the two kinds apart.

A numeral denotes an integer when it has no point and the integer is in range, and the nearest
floating point number otherwise.
-/

namespace Destructure

inductive Number where
  | int (value : Int64)
  | float (value : Binary64)
  deriving DecidableEq, Repr

namespace Number

def beq : Number → Number → Bool
  | int i, int j => i == j
  | float x, float y => x == y
  | int i, float x => x.equalsInt i
  | float x, int i => x.equalsInt i

instance : BEq Number := ⟨beq⟩

/-- The integer number of the given value, if it is in range. -/
def ofInt? (i : Int) : Option Number :=
  if Int64.minValue.toInt ≤ i ∧ i ≤ Int64.maxValue.toInt then some (int (Int64.ofInt i))
  else none

def ofNumeral (n : Numeral) : Number :=
  match if n.isIntegral then ofInt? n.integer else none with
  | some number => number
  | none => float (.ofDecimal (n.toDecimal 0))

/-- The nearest floating point number. -/
def toBinary64 : Number → Binary64
  | int i => .ofInt i.toInt
  | float x => x

/-- How a number is displayed.  A floating point number without a fraction is written out exactly,
any other with the fewest digits that read back; neither has an exponent, and both have a point. -/
def display : Number → List Char
  | int i => Decimal.integer i.toInt
  | float .nan => ['N', 'a', 'N']
  | float (.infinite negative) => Decimal.sign negative ++ ['i', 'n', 'f']
  | float (.finite negative rank) =>
    if Binary64.units rank % Binary64.one = 0 then
      Decimal.positional ⟨negative, Binary64.units rank / Binary64.one, 0⟩
    else
      (Binary64.shortest .up negative rank).positional

instance : ToString Number := ⟨fun n => String.ofList n.display⟩

end Number

end Destructure
