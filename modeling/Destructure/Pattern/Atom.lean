import Destructure.Pattern.Basic

/-! # Atoms

An atom is a pattern text without parts: a numeral, a word of ASCII letters, a string between two
quotes of one kind, or the wildcard sign.  Strings know no escapes, so a string holds any
characters but its own quote and a line end.

The words `true` and `false`, in any case, are truth values; every other word is a name.
-/

namespace Destructure

inductive Atom where
  | number (numeral : Numeral)
  | word (letters : List Char)
  | str (content : List Char)
  | wildcard
  deriving DecidableEq, Repr

/-- Holds of a word of one ASCII letter or more. -/
def isWord (text : List Char) : Bool :=
  !text.isEmpty && text.all Char.isAlpha

def truthValue? (word : List Char) : Option Bool :=
  let lower := word.map Char.toLower
  if lower = ['t', 'r', 'u', 'e'] then some true
  else if lower = ['f', 'a', 'l', 's', 'e'] then some false
  else none

/-- Holds of a word that is no truth value. -/
def isName (text : List Char) : Bool :=
  isWord text && (truthValue? text).isNone

/-- The text between the given first and last characters. -/
def between? (first last : Char) : List Char → Option (List Char)
  | [] => none
  | c :: rest => if c = first ∧ rest.getLast? = some last then some rest.dropLast else none

/-- The content of a string between two quotes of the given kind. -/
def unquote? (quote : Char) (text : List Char) : Option (List Char) :=
  match between? quote quote text with
  | some content =>
    if content.all fun c => c != quote && c != '\n' then some content else none
  | none => none

namespace Atom

/-- The atom that is the whole text. -/
def ofText? (text : List Char) : Option Atom :=
  if isWord text then
    some (word text)
  else if text = ['_'] then
    some wildcard
  else
    match Numeral.ofText? text with
    | some numeral => some (number numeral)
    | none => (unquote? '"' text <|> unquote? '\x27' text).map str

def toPattern : Atom → Pattern
  | number numeral => .number (.ofNumeral numeral)
  | word letters =>
    match truthValue? letters with
    | some value => .bool value
    | none => .ident (String.ofList letters)
  | str content => .str (String.ofList content)
  | wildcard => .wildcard

end Atom

/-- What stands between two characters is shorter than the whole by both of them. -/
theorem length_of_between? {first last : Char} {text body : List Char}
    (h : between? first last text = some body) : body.length + 2 = text.length := by
  unfold between? at h
  split at h
  · cases h
  · next c rest =>
    split at h
    · next hl =>
      cases h
      have : rest ≠ [] := by
        rintro rfl
        simp at hl
      have := List.length_pos_iff.2 this
      simp only [List.length_dropLast, List.length_cons]
      omega
    · cases h

end Destructure
