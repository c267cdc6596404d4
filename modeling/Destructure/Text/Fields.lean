import Destructure.Text.Blank

/-! # Fields of a text

A text is cut at its delimiters, except at those that stand between brackets.  The brackets are
only counted, never paired: a running depth goes up at an opening bracket and down at a closing
one, possibly below zero, and a delimiter cuts exactly where the depth is zero.

Fields are the trimmed pieces.  A blank text has no fields at all; in any other text a blank
field is refused.
-/

namespace Destructure

/-- The characters that govern how a text falls into fields. -/
structure Enclosure where
  /-- Stands between two fields. -/
  delimiter : Char
  /-- Hides the delimiters after it. -/
  opening : Char
  /-- Takes back one opening bracket. -/
  closing : Char
  deriving DecidableEq, Repr

inductive SplitError where
  /-- A field of this text, given here in whole and trimmed, is blank. -/
  | emptyField (text : String)
  deriving DecidableEq, Repr

def SplitError.message : SplitError → String
  | .emptyField text => "empty field while splitting \"" ++ text ++ "\""

namespace Enclosure

/-- The depth after a character that is no cut.  Where both brackets are one character, it opens. -/
def depthAfter (e : Enclosure) (depth : Int) (c : Char) : Int :=
  if c = e.opening then depth + 1
  else if c = e.closing then depth - 1
  else depth

/-- The stretches of a text between its cuts, the scan starting at the given depth.  A cut leaves
the depth as it is, which is zero. -/
def pieces (e : Enclosure) (depth : Int) : List Char → List (List Char)
  | [] => [[]]
  | c :: rest =>
    if c = e.delimiter ∧ depth = 0 then
      [] :: e.pieces depth rest
    else
      (e.pieces (e.depthAfter depth c) rest).modifyHead (c :: ·)

/-- The trimmed pieces of a text: none if the text is blank, and no result if a piece is. -/
def fields? (e : Enclosure) (text : List Char) : Option (List (List Char)) :=
  let body := Text.trim text
  if body.isEmpty then
    some []
  else
    let fields := (e.pieces 0 body).map Text.trim
    if fields.any List.isEmpty then none else some fields

/-- The fields of a text, or the refusal that names the trimmed text. -/
def fields (e : Enclosure) (text : String) : Except SplitError (List String) :=
  match e.fields? text.toList with
  | some fields => .ok (fields.map String.ofList)
  | none => .error (.emptyField (String.ofList (Text.trim text.toList)))

theorem pieces_ne_nil (e : Enclosure) (depth : Int) (text : List Char) :
    e.pieces depth text ≠ [] := by
  induction text generalizing depth with
  | nil => simp [pieces]
  | cons c rest ih =>
    simp only [pieces]
    split
    · simp
    · simpa [List.modifyHead_eq_nil_iff] using ih _

/-- No piece is longer than the text. -/
theorem length_le_of_mem_pieces (e : Enclosure) {depth : Int} {text piece : List Char}
    (h : piece ∈ e.pieces depth text) : piece.length ≤ text.length := by
  induction text generalizing depth piece with
  | nil => simp_all [pieces]
  | cons c rest ih =>
    simp only [pieces] at h
    split at h
    · rcases List.mem_cons.1 h with rfl | h
      · simp
      · exact Nat.le_succ_of_le (ih h)
    · cases hp : e.pieces (e.depthAfter depth c) rest with
      | nil => exact absurd hp (e.pieces_ne_nil _ _)
      | cons first others =>
        rw [hp, List.modifyHead_cons] at h
        rcases List.mem_cons.1 h with rfl | h
        · exact Nat.succ_le_succ (ih (hp ▸ List.mem_cons_self))
        · exact Nat.le_succ_of_le (ih (hp ▸ List.mem_cons_of_mem _ h))

/-- No field is longer than the text. -/
theorem length_le_of_mem_fields? (e : Enclosure) {text field : List Char}
    {fields : List (List Char)} (hf : e.fields? text = some fields) (h : field ∈ fields) :
    field.length ≤ text.length := by
  simp only [fields?] at hf
  split at hf
  · cases hf
    cases h
  · split at hf
    · cases hf
    · cases hf
      obtain ⟨piece, hp, rfl⟩ := List.mem_map.1 h
      exact Nat.le_trans (Text.length_trim_le _)
        (Nat.le_trans (e.length_le_of_mem_pieces hp) (Text.length_trim_le _))

end Enclosure

end Destructure
