import Destructure.Pattern.Atom
import Destructure.Text.Fields

/-! # Shapes of pattern texts

The shape of a trimmed text is its outermost form: an atom, or a compound whose parts are texts
again.  Finding it looks at one level only.  The whole text is taken for an array if it starts and
ends with square brackets, and for a cons group if it starts and ends with round ones; where the
parts meet is decided by counting brackets of that one kind.  A text that starts with a name and
`@` binds the name to what follows.

Every part is shorter than the text by two characters at least, so taking texts apart ends.
-/

namespace Destructure

/-- The outermost form of a pattern text. -/
inductive Shape where
  | atom (atom : Atom)
  | array (items : List (List Char))
  | cons (heads : List (List Char)) (tail : List Char)
  | named (name : List Char) (inner : List Char)
  deriving DecidableEq, Repr

def Enclosure.array : Enclosure := ⟨',', '[', ']'⟩

def Enclosure.cons : Enclosure := ⟨':', '(', ')'⟩

namespace Shape

def array? (body : List Char) : Option Shape :=
  (Enclosure.array.fields? body).map array

/-- The cons group of the fields of its body.  It has a head at least, and its last field is the
tail. -/
def cons? (body : List Char) : Option Shape :=
  match Enclosure.cons.fields? body with
  | none => none
  | some fields =>
    match fields.dropLast, fields.getLast? with
    | head :: heads, some tail => some (cons (head :: heads) tail)
    | _, _ => none

/-- The name before the first `@` and the text after it, which must not be blank. -/
def named? (text : List Char) : Option Shape :=
  match text.dropWhile (· != '@') with
  | [] => none
  | _ :: inner =>
    let name := text.takeWhile (· != '@')
    if isName name ∧ ¬(Text.trim inner).isEmpty then some (named name inner) else none

/-- The shape of a trimmed text. -/
def ofText? (text : List Char) : Option Shape :=
  match Atom.ofText? text, between? '[' ']' text, between? '(' ')' text with
  | some a, _, _ => some (atom a)
  | none, some body, _ => array? body
  | none, none, some body => cons? body
  | none, none, none => named? text

/-- The texts that stand for patterns of their own. -/
def parts : Shape → List (List Char)
  | atom _ => []
  | array items => items
  | cons heads tail => heads ++ [tail]
  | named _ inner => [inner]

theorem parts_of_array? {body : List Char} {s : Shape} (h : array? body = some s) :
    Enclosure.array.fields? body = some s.parts := by
  obtain ⟨fields, hf, rfl⟩ := Option.map_eq_some_iff.1 h
  exact hf

theorem parts_of_cons? {body : List Char} {s : Shape} (h : cons? body = some s) :
    Enclosure.cons.fields? body = some s.parts := by
  unfold cons? at h
  split at h
  · cases h
  · next fields hf =>
    split at h
    · next head heads tail hd hl =>
      cases h
      obtain ⟨front, rfl⟩ := List.getLast?_eq_some_iff.1 hl
      rw [List.dropLast_concat] at hd
      rw [hf, parts, hd]
    · cases h

/-- Each part is shorter than the text by two characters at least. -/
theorem length_part_le {text part : List Char} {s : Shape} (h : ofText? text = some s)
    (hp : part ∈ s.parts) : part.length + 2 ≤ text.length := by
  unfold ofText? at h
  split at h
  · cases h
    cases hp
  · next body _ hb =>
    have := Enclosure.length_le_of_mem_fields? _ (parts_of_array? h) hp
    have := length_of_between? hb
    omega
  · next body _ _ hb =>
    have := Enclosure.length_le_of_mem_fields? _ (parts_of_cons? h) hp
    have := length_of_between? hb
    omega
  · unfold named? at h
    split at h
    · cases h
    · next sign inner hd =>
      simp only at h
      split at h
      · next hn =>
        cases h
        rw [parts, List.mem_singleton] at hp
        subst hp
        have hlen := congrArg List.length
          (List.takeWhile_append_dropWhile (p := (· != '@')) (l := text))
        have hpos : 0 < (text.takeWhile (· != '@')).length := by
          rw [List.length_pos_iff]
          intro he
          rw [he] at hn
          simp [isName, isWord] at hn
        rw [hd, List.length_append, List.length_cons] at hlen
        omega
      · cases h

end Shape

end Destructure
