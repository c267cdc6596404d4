import Destructure.Text.Blank
import Mathlib.Data.List.DropRight

/-! # Trimming

Trimming forgets the blanks at the two ends of a text and nothing else, so it does not see how much
blank space a text is surrounded by.
-/

namespace Destructure.Text

def Blank (text : List Char) : Prop :=
  ∀ c ∈ text, isBlank c = true

theorem blank_nil : Blank [] := by
  intro c member
  cases member

theorem Blank.append {s t} (hs : Blank s) (ht : Blank t) : Blank (s ++ t) := by
  intro c member
  exact (List.mem_append.mp member).elim (hs c) (ht c)

theorem trimEnd_eq_rdropWhile (text : List Char) : trimEnd text = text.rdropWhile isBlank := rfl

theorem trimStart_append_blank {before} (blank : Blank before) (text : List Char) :
    trimStart (before ++ text) = trimStart text :=
  List.dropWhile_append_of_pos blank

theorem trimStart_cons {c} (solid : isBlank c = false) (text : List Char) :
    trimStart (c :: text) = c :: text :=
  List.dropWhile_cons_of_neg (by simp [solid])

theorem trimEnd_append_blank {after} (blank : Blank after) (text : List Char) :
    trimEnd (text ++ after) = trimEnd text := by
  have reversed : ∀ c ∈ after.reverse, isBlank c = true := by
    intro c member
    exact blank c (List.mem_reverse.mp member)
  rw [trimEnd, List.reverse_append, List.dropWhile_append_of_pos reversed, trimEnd]

theorem trimEnd_append_cons {c} (solid : isBlank c = false) (s t : List Char) :
    trimEnd (s ++ c :: t) = s ++ c :: trimEnd t := by
  simp only [trimEnd, List.reverse_append, List.reverse_cons, List.append_assoc,
    @List.dropWhile_append _ _ t.reverse, List.singleton_append,
    List.dropWhile_cons_of_neg (show ¬ isBlank c = true by simp [solid])]
  split
  · rename_i empty
    simp [List.isEmpty_iff.mp empty]
  · simp

theorem trimEnd_concat {c} (solid : isBlank c = false) (s : List Char) :
    trimEnd (s ++ [c]) = s ++ [c] := by
  rw [trimEnd_append_cons solid]
  rfl

theorem trim_eq_nil_iff {text} : trim text = [] ↔ Blank text := by
  rw [trim, trimEnd_eq_rdropWhile, List.rdropWhile_eq_nil_iff]
  constructor
  · intro rest c member
    rw [← List.takeWhile_append_dropWhile (p := isBlank) (l := text)] at member
    rcases List.mem_append.mp member with early | late
    · exact List.mem_takeWhile_imp early
    · exact rest c late
  · intro blank c member
    exact blank c ((List.dropWhile_sublist isBlank).subset member)

theorem trim_surrounded {before after} (hb : Blank before) (ha : Blank after) (text : List Char) :
    trim (before ++ text ++ after) = trim text := by
  rw [trim, List.append_assoc, trimStart_append_blank hb]
  by_cases blank : Blank text
  · have : Blank (text ++ after) := blank.append ha
    rw [← trim, trim_eq_nil_iff.mpr this, trim_eq_nil_iff.mpr blank]
  · have solid : ¬ (text.dropWhile isBlank).isEmpty = true := by
      intro empty
      refine blank (trim_eq_nil_iff.mp ?_)
      rw [trim, trimStart, List.isEmpty_iff.mp empty]
      rfl
    rw [trimStart, List.dropWhile_append, if_neg solid, trimEnd_append_blank ha, trim, trimStart]

theorem exists_surrounded_trim (text : List Char) :
    ∃ before after, Blank before ∧ Blank after ∧ text = before ++ trim text ++ after := by
  refine ⟨text.takeWhile isBlank, (trimStart text).rtakeWhile isBlank, ?_, ?_, ?_⟩
  · exact fun c member => List.mem_takeWhile_imp member
  · exact fun c member => List.mem_rtakeWhile_imp member
  · rw [trim, trimEnd_eq_rdropWhile, List.append_assoc, List.rdropWhile_append_rtakeWhile,
      trimStart, List.takeWhile_append_dropWhile]

theorem trim_isInfix (text : List Char) : trim text <:+: text := by
  obtain ⟨before, after, -, -, split⟩ := exists_surrounded_trim text
  exact ⟨before, after, split.symm⟩

theorem trim_trim (text : List Char) : trim (trim text) = trim text := by
  obtain ⟨before, after, hb, ha, split⟩ := exists_surrounded_trim text
  conv_rhs => rw [split, trim_surrounded hb ha]

theorem trim_blank_append {before} (hb : Blank before) (text : List Char) :
    trim (before ++ text) = trim text := by
  have := trim_surrounded hb blank_nil text
  rwa [List.append_nil] at this

theorem trim_append_blank {after} (ha : Blank after) (text : List Char) :
    trim (text ++ after) = trim text :=
  trim_surrounded blank_nil ha text

theorem trim_trimEnd (text : List Char) : trim (trimEnd text) = trim text := by
  have blank : Blank (text.rtakeWhile isBlank) := fun c member => List.mem_rtakeWhile_imp member
  have := trim_append_blank blank (trimEnd text)
  rwa [trimEnd_eq_rdropWhile, List.rdropWhile_append_rtakeWhile, eq_comm] at this

theorem trim_cons {c} (solid : isBlank c = false) (text : List Char) :
    trim (c :: text) = c :: trimEnd text := by
  rw [trim, trimStart_cons solid]
  exact trimEnd_append_cons solid [] text

theorem trim_enclosed {c d} (solid : isBlank c = false) (solid' : isBlank d = false)
    (text : List Char) : trim (c :: text ++ [d]) = c :: text ++ [d] := by
  rw [List.cons_append, trim_cons solid, trimEnd_concat solid']

theorem trim_of_solid {text : List Char} (solid : ∀ c ∈ text, isBlank c = false) :
    trim text = text := by
  obtain ⟨before, after, hb, ha, split⟩ := exists_surrounded_trim text
  have none_blank : ∀ {part}, Blank part → (∀ c ∈ part, c ∈ text) → part = [] := by
    intro part blank sub
    apply List.eq_nil_iff_forall_not_mem.mpr
    intro c member
    have := solid c (sub c member)
    rw [blank c member] at this
    cases this
  have noBefore : before = [] := none_blank hb fun c member => by
    rw [split]
    exact List.mem_append_left _ (List.mem_append_left _ member)
  have noAfter : after = [] := none_blank ha fun c member => by
    rw [split]
    exact List.mem_append_right _ member
  rw [noBefore, noAfter, List.append_nil, List.nil_append] at split
  exact split.symm

end Destructure.Text
