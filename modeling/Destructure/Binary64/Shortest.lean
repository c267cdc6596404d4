import Destructure.Binary64.Rounding

/-! # The shortest decimal of a number

Of all decimals that round to a given number, the shortest ones have the fewest digits, and of
those the one nearest to the number is taken.  On the grid of decimals with a given last place only
the two neighbours of the number can be nearest, so the search goes through the grids from coarse
to fine and tests these two.  The exact value stands at the end of the search, so what is found
always rounds back to the number.
-/

namespace Destructure.Binary64

/-- Which of two neighbours on a grid is taken when the number lies half-way between them. -/
inductive Tie where
  /-- The larger one. -/
  | up
  /-- The one with an even coefficient. -/
  | even
  deriving DecidableEq, Repr

/-- Holds when the choice half-way above the given coefficient falls on that coefficient. -/
def Tie.keeps : Tie → Nat → Bool
  | up, _ => false
  | even, coefficient => coefficient % 2 == 0

/-- The value of a rank as a decimal, which is exact since a unit is `5 ^ 1074 * 10 ^ -1074`. -/
def exactDecimal (negative : Bool) (rank : Nat) : Decimal where
  negative := negative
  coefficient := units rank * Nat.pow 5 1074
  exponent := -1074

/-- The neighbours of a decimal on the grid that lies `places` above its own last place: those of
the two that `accepts` admits, and the nearer one if both are admitted. -/
def neighbour? (tie : Tie) (accepts : Decimal → Bool) (d : Decimal) (places : Nat) :
    Option Decimal :=
  let step := Nat.pow 10 places
  let below : Decimal := ⟨d.negative, d.coefficient / step, d.exponent + places⟩
  let above : Decimal := ⟨d.negative, d.coefficient / step + 1, d.exponent + places⟩
  let twice := 2 * (d.coefficient % step)
  match accepts below, accepts above with
  | true, true =>
    if twice < step then some below
    else if step < twice then some above
    else some (if tie.keeps below.coefficient then below else above)
  | true, false => some below
  | false, true => some above
  | false, false => none

/-- The shortest decimal that rounds to the finite number of a sign and a rank.  Seventeen digits
are enough for every number. -/
def shortest (tie : Tie) (negative : Bool) (rank : Fin magnitudes) : Decimal :=
  if rank.val = 0 then
    ⟨negative, 0, 0⟩
  else
    let exact := exactDecimal negative rank
    let size := (Decimal.digits exact.coefficient).length
    let accepts (d : Decimal) : Bool := ofDecimal d = finite negative rank
    ((List.range 18).findSome? fun count => neighbour? tie accepts exact (size - count)).getD exact

end Destructure.Binary64
