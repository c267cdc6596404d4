/-! # Decimals

A decimal is a sign, a natural coefficient and a power of ten: the exact number that a numeral
denotes, before any rounding.  It is written out in one of two layouts, positional or scientific.
The positional layout always has a point with a digit on each side of it.
-/

namespace Destructure

/-- The number `± coefficient * 10 ^ exponent`.  The sign of zero is kept. -/
structure Decimal where
  negative : Bool
  coefficient : Nat
  exponent : Int
  deriving DecidableEq, Repr

namespace Decimal

/-- The digits of a natural number in base ten, without leading zeros. -/
def digits (n : Nat) : List Char :=
  Nat.toDigits 10 n

/-- The natural number that digits in base ten denote. -/
def ofDigits (text : List Char) : Nat :=
  Nat.ofDigitChars 10 text 0

theorem ofDigits_digits (n : Nat) : ofDigits (digits n) = n :=
  Nat.ofDigitChars_toDigits (by decide) (by decide)

/-- A minus sign, for negative numbers only. -/
def sign (negative : Bool) : List Char :=
  if negative then ['-'] else []

def integer (i : Int) : List Char :=
  sign (decide (i < 0)) ++ digits i.natAbs

/-- The absolute value of a decimal is `numerator / denominator`. -/
def numerator (d : Decimal) : Nat :=
  d.coefficient * Nat.pow 10 d.exponent.toNat

/-- A power of ten that clears a negative exponent. -/
def denominator (d : Decimal) : Nat :=
  Nat.pow 10 (-d.exponent).toNat

theorem denominator_pos (d : Decimal) : 0 < d.denominator :=
  Nat.pow_pos (by decide)

/-- The power of ten at the place of the first digit. -/
def leadingExponent (d : Decimal) : Int :=
  d.exponent + (digits d.coefficient).length - 1

/-- Every digit at its place, with at least one digit on each side of the point. -/
def positional (d : Decimal) : List Char :=
  sign d.negative ++
    if 0 ≤ d.exponent then
      digits d.numerator ++ ['.', '0']
    else
      let places := (-d.exponent).toNat
      digits (d.coefficient / d.denominator) ++
        '.' :: (digits (d.coefficient % d.denominator)).leftpad places '0'

/-- One digit before the point, the others after it, and the power of ten with its sign.  A single
digit has no point. -/
def scientific (d : Decimal) : List Char :=
  let mantissa :=
    match digits d.coefficient with
    | first :: second :: others => first :: '.' :: second :: others
    | short => short
  let e := d.leadingExponent
  sign d.negative ++ mantissa ++ 'e' :: (if e < 0 then '-' else '+') :: digits e.natAbs

end Decimal

end Destructure
