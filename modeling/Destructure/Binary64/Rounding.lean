import Destructure.Binary64.Basic
import Destructure.Decimal

/-! # Rounding to the nearest number

Every nonnegative fraction has a nearest rank, and of two that are equally near the even one is
taken.  Past the largest rank lies the infinity.  A decimal is rounded as the exact fraction that
it denotes; a decimal whose size settles the answer is not written out as a fraction first.
-/

namespace Destructure.Binary64

/-- The quotient rounded to the nearest integer, a half to the even one. -/
def roundHalfEven (numerator denominator : Nat) : Nat :=
  let quotient := numerator / denominator
  let remainder := numerator % denominator
  if 2 * remainder < denominator then quotient
  else if denominator < 2 * remainder then quotient + 1
  else quotient + quotient % 2

/-- The rank nearest to a fraction.  The fraction is first taken in units, then in the spacing of
its binade; each doubling of the spacing skips one binade of ranks.  A rounding up to the next
binade lands on that binade's first rank. -/
def nearestRank (numerator denominator : Nat) : Nat :=
  let inUnits := numerator <<< 1074
  let doublings := (inUnits / denominator).log2 - 52
  doublings * binade + roundHalfEven inUnits (denominator <<< doublings)

/-- The number of a sign and a rank, which is infinite for a rank past the largest. -/
def ofRank (negative : Bool) (rank : Nat) : Binary64 :=
  if h : rank < magnitudes then finite negative ⟨rank, h⟩ else infinite negative

/-- The number nearest to a decimal. -/
def ofDecimal (d : Decimal) : Binary64 :=
  if d.coefficient = 0 then
    ofRank d.negative 0
  else if 310 < d.exponent then
    -- at least `10 ^ 311`, which is past every finite number
    infinite d.negative
  else if (d.coefficient.log2 + 1080 : Int) < -(3 * d.exponent) then
    -- less than half a unit
    ofRank d.negative 0
  else
    ofRank d.negative (nearestRank d.numerator d.denominator)

def ofInt (i : Int) : Binary64 :=
  ofRank (decide (i < 0)) (nearestRank i.natAbs 1)

end Destructure.Binary64
