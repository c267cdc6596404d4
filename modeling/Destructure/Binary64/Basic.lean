/-! # Binary floating point numbers of 64 bits

The finite magnitudes of the format are numbered in increasing order from zero.  The number of a
magnitude, its rank, is also its bit pattern, and its value is a whole number of units of
`2 ^ -1074`, the smallest positive magnitude.  So no exponent and no significand is stored: both
are read off the rank, in exact natural numbers.

`==` is the comparison of the format, in which the two zeros are equal and `nan` equals nothing, not
even itself; `=` is identity.
-/

namespace Destructure

inductive Binary64 where
  /-- The result of an operation that has none. -/
  | nan
  /-- Beyond all finite numbers, with its sign. -/
  | infinite (negative : Bool)
  /-- A sign and the rank of a finite magnitude. -/
  | finite (negative : Bool) (rank : Fin 0x7FF0000000000000)
  deriving DecidableEq, Repr

namespace Binary64

/-- How many finite magnitudes there are. -/
abbrev magnitudes : Nat := 0x7FF0000000000000

/-- How many ranks a binade has, which is `2 ^ 52`. -/
abbrev binade : Nat := 0x10000000000000

/-- The value of a rank in units of `2 ^ -1074`.  The first two binades are spaced by one unit;
each binade after them is spaced twice as wide as the one before. -/
def units (rank : Nat) : Nat :=
  if rank < binade then rank else (binade + rank % binade) <<< (rank / binade - 1)

abbrev one : Nat := 1 <<< 1074

/-- The comparison of the format. -/
def beq : Binary64 → Binary64 → Bool
  | finite s a, finite t b => a == b && (s == t || a.val == 0)
  | infinite s, infinite t => s == t
  | _, _ => false

instance : BEq Binary64 := ⟨beq⟩

/-- Holds of the finite numbers without a fraction. -/
def isWhole : Binary64 → Bool
  | finite _ rank => units rank % one == 0
  | _ => false

/-- Holds of the numbers from `-2 ^ 63` on and below `2 ^ 63`. -/
def inRange : Binary64 → Bool
  | finite true rank => units rank ≤ 0x8000000000000000 * one
  | finite false rank => units rank < 0x8000000000000000 * one
  | _ => false

/-- The number without its fraction as an integer of 64 bits, which is the last one in the direction
of the number if that is out of range, and zero for `nan`. -/
def toInt64 : Binary64 → Int64
  | nan => 0
  | infinite negative => if negative then Int64.minValue else Int64.maxValue
  | finite negative rank =>
    let magnitude : Int := (units rank / one : Nat)
    Int64.ofIntClamp (if negative then -magnitude else magnitude)

/-- Comparison with an integer.  A number that cutting it down would change equals none. -/
def equalsInt (x : Binary64) (i : Int64) : Bool :=
  x.isWhole && x.inRange && x.toInt64 == i

/-- The 64 bits of the number: the sign, then the rank.  The infinities come next after the
largest rank, and of the patterns past them one stands for `nan`. -/
def bits : Binary64 → Nat
  | nan => 0x7FF8000000000000
  | infinite negative => negative.toNat <<< 63 + magnitudes
  | finite negative rank => negative.toNat <<< 63 + rank

def isFinite : Binary64 → Bool
  | finite .. => true
  | _ => false

end Binary64

end Destructure
