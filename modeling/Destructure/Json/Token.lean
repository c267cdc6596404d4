import Destructure.Json.Quoted
import Destructure.Number

/-! # Tokens of JSON text

JSON text without objects is a sequence of words, numbers, strings, commas and square brackets,
with spaces, tabs and line ends between them.

A number is a numeral without needless leading zeros, with a power of ten that may follow it.  It
denotes an integer if it has neither point nor power and the integer is in range; otherwise the
nearest floating point number, which must not be infinite.  A zero with a minus sign is a floating
point number, since no integer denotes it.
-/

namespace Destructure.Json

inductive Token where
  | null
  | bool (value : Bool)
  | number (value : Number)
  | str (text : String)
  | comma
  | opening
  | closing
  deriving DecidableEq, Repr

/-- Holds of the characters that may stand between two tokens. -/
def isSpace (c : Char) : Bool :=
  c == ' ' || c == '\t' || c == '\n' || c == '\r'

/-- The power of ten at the start of a text, if the text starts with a power mark. -/
def power? (text : List Char) : Option (Option Int × List Char) :=
  match text with
  | mark :: tail =>
    if mark = 'e' ∨ mark = 'E' then
      let negative := tail.head? == some '-'
      let body := if negative ∨ tail.head? = some '+' then tail.tail else tail
      let digits := body.takeWhile Char.isDigit
      let magnitude : Int := Decimal.ofDigits digits
      if digits.isEmpty then none
      else some (some (if negative then -magnitude else magnitude), body.dropWhile Char.isDigit)
    else
      some (none, text)
  | [] => some (none, [])

def number? (numeral : Numeral) (power : Option Int) : Option Number :=
  let nearest := Binary64.ofDecimal (numeral.toDecimal (power.getD 0))
  let float? := if nearest.isFinite then some (Number.float nearest) else none
  if power = none ∧ numeral.isIntegral ∧ ¬(numeral.negative ∧ numeral.integer = 0) then
    Number.ofInt? numeral.integer <|> float?
  else
    float?

/-- The number at the start of a text, and what follows it. -/
def scanNumber? (text : List Char) : Option (Number × List Char) :=
  match Numeral.scan? text with
  | none => none
  | some (numeral, rest) =>
    if numeral.whole.head? = some '0' ∧ numeral.whole.length ≠ 1 then
      none
    else
      match power? rest with
      | none => none
      | some (power, after) => (number? numeral power).map (·, after)

def Token.scan? : List Char → Option (Token × List Char)
  | ',' :: rest => some (.comma, rest)
  | '[' :: rest => some (.opening, rest)
  | ']' :: rest => some (.closing, rest)
  | '"' :: rest => (contents? rest).map fun (text, rest) => (.str (String.ofList text), rest)
  | 'n' :: 'u' :: 'l' :: 'l' :: rest => some (.null, rest)
  | 't' :: 'r' :: 'u' :: 'e' :: rest => some (.bool true, rest)
  | 'f' :: 'a' :: 'l' :: 's' :: 'e' :: rest => some (.bool false, rest)
  | text => (scanNumber? text).map fun (value, rest) => (.number value, rest)

theorem length_le_of_power? {text rest : List Char} {power : Option Int}
    (h : power? text = some (power, rest)) : rest.length ≤ text.length := by
  unfold power? at h
  split at h
  · next mark tail =>
    split at h
    · simp only at h
      generalize hb : (if (tail.head? == some '-') = true ∨ tail.head? = some '+' then tail.tail
        else tail) = body at h
      have hbody : body.length ≤ tail.length := by
        subst hb
        split <;> simp
      split at h
      · cases h
      · cases h
        have := (List.dropWhile_sublist (l := body) Char.isDigit).length_le
        simp only [List.length_cons]
        omega
    · cases h
      exact Nat.le_refl _
  · cases h
    exact Nat.le_refl _

theorem length_lt_of_scanNumber? {text rest : List Char} {value : Number}
    (h : scanNumber? text = some (value, rest)) : rest.length < text.length := by
  unfold scanNumber? at h
  split at h
  · cases h
  · next numeral middle hn =>
    split at h
    · cases h
    · split at h
      · cases h
      · next power after hp =>
        obtain ⟨_, _, he⟩ := Option.map_eq_some_iff.1 h
        cases he
        exact Nat.lt_of_le_of_lt (length_le_of_power? hp) (Numeral.length_lt_of_scan? hn)

theorem Token.length_lt_of_scan? {text rest : List Char} {token : Token}
    (h : Token.scan? text = some (token, rest)) : rest.length < text.length := by
  unfold Token.scan? at h
  split at h
  case h_4 =>
    obtain ⟨⟨_, _⟩, hc, he⟩ := Option.map_eq_some_iff.1 h
    cases he
    exact Nat.lt_succ_of_lt (length_lt_of_contents? hc)
  case h_8 =>
    obtain ⟨⟨_, _⟩, hn, he⟩ := Option.map_eq_some_iff.1 h
    cases he
    exact length_lt_of_scanNumber? hn
  all_goals
    cases h
    simp only [List.length_cons]
    omega

def tokens? (text : List Char) : Option (List Token) :=
  match text with
  | [] => some []
  | c :: rest =>
    if isSpace c then
      tokens? rest
    else
      match _h : Token.scan? (c :: rest) with
      | none => none
      | some (token, after) => (tokens? after).map (token :: ·)
termination_by text.length
decreasing_by
  · exact Nat.lt_succ_self _
  · exact Token.length_lt_of_scan? _h

end Destructure.Json
