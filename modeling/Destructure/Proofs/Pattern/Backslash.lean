import Destructure.Proofs.Pattern.Grammar
import Destructure.Proofs.Pattern.Atom

/-! # Backslashes in pattern texts

Nothing in a pattern text but its strings has backslashes, since strings know no escapes and no
other form makes use of them.  So the backslashes of a text are those of the strings of its pattern.
-/

namespace Destructure.Pattern

/-- The characters in some strings, one after the other. -/
def content (texts : List String) : List Char :=
  texts.flatMap String.toList

@[simp] theorem content_nil : content [] = [] := rfl

@[simp] theorem content_append (texts others : List String) :
    content (texts ++ others) = content texts ++ content others :=
  List.flatMap_append

theorem stringsEach_append (ps qs : List Pattern) :
    stringsEach (ps ++ qs) = stringsEach ps ++ stringsEach qs := by
  induction ps with
  | nil => rfl
  | cons p ps ih => simp [stringsEach, ih]

theorem count_intercalate {c : Char} (sep : List Char) (other : c ∉ sep) (texts : List (List Char)) :
    (sep.intercalate texts).count c = texts.flatten.count c := by
  induction texts with
  | nil => rfl
  | cons first texts ih =>
      cases texts with
      | nil => simp
      | cons next texts =>
          have none := List.count_eq_zero.mpr other
          simp only [List.intercalate_cons_cons, List.flatten_cons, List.count_append, none] at ih ⊢
          omega

theorem count_word {letters : List Char} (h : isWord letters = true) : letters.count '\\' = 0 := by
  rw [List.count_eq_zero]
  intro member
  cases (isWord_iff.mp h).2 _ member

theorem count_blank {text : List Char} (h : Text.Blank text) : text.count '\\' = 0 := by
  rw [List.count_eq_zero]
  intro member
  cases h _ member

theorem count_numeral {k : Numeral} (proper : k.Proper) : k.text.count '\\' = 0 := by
  rw [List.count_eq_zero]
  intro member
  rcases proper.of_mem_text member with sign | point | digit
  · cases sign
  · cases point
  · cases digit

theorem count_atomic {text p} (h : Atomic text p) :
    text.count '\\' = (content p.strings).count '\\' := by
  cases h with
  | number proper => exact count_numeral proper
  | bool h => exact count_word h.isWord
  | ident h => exact count_word h.isWord
  | @str quote letters kind plain =>
      have other : quote ≠ '\\' := by
        rintro rfl
        cases kind <;> contradiction
      simp [strings, content, other]
  | wildcard => rfl

mutual
/-- A text has as many backslashes as the strings of its pattern. -/
theorem count_of_written {parted text p} : Written parted text p →
    text.count '\\' = (content p.strings).count '\\'
  | .surrounded hb ha bare => by
      rw [List.count_append, List.count_append, count_blank hb, count_blank ha, count_of_bare bare]
      omega

theorem count_of_bare {parted text p} : Bare parted text p →
    text.count '\\' = (content p.strings).count '\\'
  | .atom h => count_atomic h
  | .emptyArray blank => by simp [count_blank blank, strings, stringsEach]
  | .array _ _ each => by
      have inside := count_of_writtenEach each
      rw [← count_intercalate [','] (by decide)] at inside
      simpa [strings] using inside
  | .cons _ _ each final => by
      have front := count_of_writtenEach each
      have last := count_of_written final
      have inside := count_intercalate (c := '\\') [':'] (by decide)
      simp [strings, inside, front, last]
  | .named identifier body => by
      have name := count_word identifier.isWord
      have inside := count_of_written body
      simp [strings, name, inside]

theorem count_of_writtenEach {parted texts ps} : WrittenEach parted texts ps →
    texts.flatten.count '\\' = (content (stringsEach ps)).count '\\'
  | .nil => rfl
  | .cons first others => by
      rw [List.flatten_cons, List.count_append, count_of_written first, count_of_writtenEach others,
        stringsEach, content_append, List.count_append]
end

end Destructure.Pattern
