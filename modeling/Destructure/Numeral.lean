import Destructure.Decimal

/-! # Numerals

A numeral is an optional minus sign, digits, and optionally a point with digits after it.  Scanning
takes the longest numeral that a text starts with.  Digits are the ten ASCII digits.
-/

namespace Destructure

structure Numeral where
  negative : Bool
  /-- The digits before the point. -/
  whole : List Char
  /-- The digits after the point, empty in a numeral without a point. -/
  fraction : List Char
  deriving DecidableEq, Repr

namespace Numeral

/-- The longest numeral at the start of a text, and what follows it.  A point without a digit after
it does not belong to the numeral. -/
def scan? (text : List Char) : Option (Numeral × List Char) :=
  let negative := text.head? == some '-'
  let body := if negative then text.tail else text
  let whole := body.takeWhile Char.isDigit
  let rest := body.dropWhile Char.isDigit
  if whole.isEmpty then
    none
  else
    match rest with
    | '.' :: tail =>
      let fraction := tail.takeWhile Char.isDigit
      if fraction.isEmpty then
        some (⟨negative, whole, []⟩, rest)
      else
        some (⟨negative, whole, fraction⟩, tail.dropWhile Char.isDigit)
    | _ => some (⟨negative, whole, []⟩, rest)

def ofText? (text : List Char) : Option Numeral :=
  match scan? text with
  | some (numeral, []) => some numeral
  | _ => none

/-- Holds of a numeral without a point. -/
def isIntegral (n : Numeral) : Bool :=
  n.fraction.isEmpty

/-- The digits before the point, as a number. -/
def integer (n : Numeral) : Int :=
  let magnitude : Int := Decimal.ofDigits n.whole
  if n.negative then -magnitude else magnitude

/-- The exact number, moved by the given power of ten. -/
def toDecimal (n : Numeral) (shift : Int) : Decimal where
  negative := n.negative
  coefficient := Decimal.ofDigits (n.whole ++ n.fraction)
  exponent := shift - n.fraction.length

/-- What follows a numeral is shorter than the text that held it. -/
theorem length_lt_of_scan? {text rest : List Char} {n : Numeral}
    (h : scan? text = some (n, rest)) : rest.length < text.length := by
  simp only [scan?] at h
  generalize hb : (if (text.head? == some '-') = true then text.tail else text) = body at h
  have hbody : body.length ≤ text.length := by
    subst hb
    split <;> simp
  have hsplit := congrArg List.length (List.takeWhile_append_dropWhile (p := Char.isDigit) (l := body))
  rw [List.length_append] at hsplit
  split at h
  · cases h
  · next hw =>
    have hpos : 0 < (body.takeWhile Char.isDigit).length :=
      List.length_pos_iff.2 (by simpa using hw)
    split at h
    · next tail ht =>
      rw [ht, List.length_cons] at hsplit
      split at h
      · cases h
        rw [ht, List.length_cons]
        omega
      · cases h
        have := (List.dropWhile_sublist (l := tail) Char.isDigit).length_le
        omega
    · cases h
      omega

end Numeral

end Destructure
