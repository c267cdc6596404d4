import Destructure.Decimal

/-! # Forms of arguments

What an argument is taken for by its look alone.  Two hyphens start a long option, whose value may
follow after an equals sign; two hyphens alone end the options.  One hyphen starts short options,
and a hyphen alone is a plain word.
-/

namespace Destructure.CommandLine

inductive Argument where
  /-- The end of the options. -/
  | separator
  /-- A long option with the value attached to it, if any. -/
  | long (name : String) (attached : Option String)
  /-- Short options, one letter each. -/
  | short (first : Char) (others : List Char)
  /-- Anything else. -/
  | word (text : String)
  deriving DecidableEq, Repr

namespace Argument

def ofText (text : String) : Argument :=
  match text.toList with
  | ['-', '-'] => separator
  | '-' :: '-' :: body =>
    let name := String.ofList (body.takeWhile (· != '='))
    match body.dropWhile (· != '=') with
    | [] => long name none
    | _ :: value => long name (some (String.ofList value))
  | '-' :: first :: others => short first others
  | _ => word text

/-- Holds of digits with at most one point, which is not the first character, and at most one power
mark, which is neither the first character nor the last and has no point after it.  A hyphen before
such a text makes a negative number. -/
def isMagnitude (text : List Char) : Bool :=
  let mantissa := text.takeWhile fun c => c != 'e' && c != 'E'
  let power := text.dropWhile fun c => c != 'e' && c != 'E'
  mantissa.head? != some '.' && mantissa.all (fun c => c.isDigit || c == '.') &&
    mantissa.count '.' ≤ 1 &&
    (power.isEmpty || !mantissa.isEmpty && power.length != 1 && power.tail.all Char.isDigit)

def isNegativeNumber : Argument → Bool
  | short first others => isMagnitude (first :: others)
  | _ => false

/-- A natural number below `2 ^ 64`, which a plus sign may precede. -/
def natural? (text : String) : Option Nat :=
  let body := text.toList
  let digits := if body.head? = some '+' then body.tail else body
  if !digits.isEmpty ∧ digits.all Char.isDigit then
    let value := Decimal.ofDigits digits
    if value < UInt64.size then some value else none
  else
    none

end Argument

end Destructure.CommandLine
