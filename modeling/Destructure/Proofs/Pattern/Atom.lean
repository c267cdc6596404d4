import Destructure.Pattern.Atom
import Destructure.Proofs.Numeral
import Destructure.Proofs.Text.Trimming

/-! # The texts of atoms

An atom is found exactly in the texts that spell it.  What a text can spell shows in its first
character, so neither a group nor a named pattern is ever taken for an atom.
-/

namespace Destructure

theorem between?_eq_some_iff {first last : Char} {text body : List Char} :
    between? first last text = some body ↔ text = first :: body ++ [last] := by
  cases text with
  | nil => simp [between?]
  | cons c rest =>
      rw [between?]
      constructor
      · intro h
        split at h
        · rename_i ends
          obtain ⟨rfl, ended⟩ := ends
          cases h
          obtain ⟨front, rfl⟩ := List.getLast?_eq_some_iff.mp ended
          rw [List.dropLast_concat]
          rfl
        · cases h
      · intro h
        obtain ⟨rfl, rfl⟩ := List.cons.inj h
        simp

theorem between?_enclosed (first last : Char) (body : List Char) :
    between? first last (first :: body ++ [last]) = some body :=
  between?_eq_some_iff.mpr rfl

theorem isWord_iff {text : List Char} :
    isWord text = true ↔ text ≠ [] ∧ ∀ c ∈ text, c.isAlpha = true := by
  simp [isWord]

theorem exists_cons_of_isWord {text : List Char} (h : isWord text = true) :
    ∃ c rest, text = c :: rest ∧ c.isAlpha = true := by
  obtain ⟨nonempty, letters⟩ := isWord_iff.mp h
  obtain ⟨c, rest, rfl⟩ := List.exists_cons_of_ne_nil nonempty
  exact ⟨c, rest, rfl, letters c List.mem_cons_self⟩

theorem isWord_of_isName {text : List Char} (h : isName text = true) : isWord text = true :=
  (Bool.and_eq_true_iff.mp h).1

def IsQuote (c : Char) : Prop :=
  c = '"' ∨ c = '\x27'

instance : DecidablePred IsQuote :=
  fun c => inferInstanceAs (Decidable (c = '"' ∨ c = '\x27'))

theorem unquote?_eq_some_iff {quote : Char} {text content : List Char} :
    unquote? quote text = some content ↔
      text = quote :: content ++ [quote] ∧ ∀ c ∈ content, c ≠ quote ∧ c ≠ '\n' := by
  have allowed : ∀ body : List Char, (body.all fun c => c != quote && c != '\n') = true ↔
      ∀ c ∈ body, c ≠ quote ∧ c ≠ '\n' := by
    intro body
    simp
  rw [unquote?]
  constructor
  · intro h
    split at h
    · rename_i body found
      split at h
      · rename_i all
        cases h
        exact ⟨between?_eq_some_iff.mp found, (allowed _).mp all⟩
      · cases h
    · cases h
  · rintro ⟨rfl, all⟩
    simp only [between?_enclosed, (allowed content).mpr all, if_true]

namespace IsQuote

theorem not_alpha {c} (h : IsQuote c) : c.isAlpha = false := by
  rcases h with rfl | rfl <;> decide

theorem not_numeral {c} (h : IsQuote c) : ¬ Numeral.Starts c := by
  rintro (rfl | digit)
  · rcases h with h | h <;> cases h
  · rcases h with rfl | rfl <;> cases digit

theorem not_blank {c} (h : IsQuote c) : Text.isBlank c = false := by
  rcases h with rfl | rfl <;> decide

end IsQuote

namespace Atom

inductive Spells : List Char → Atom → Prop where
  | number {n : Numeral} (proper : n.Proper) : Spells n.text (.number n)
  | word {letters} (h : isWord letters = true) : Spells letters (.word letters)
  /-- A string holds anything but its own quote and a line end. -/
  | str {quote content} (kind : IsQuote quote) (plain : ∀ c ∈ content, c ≠ quote ∧ c ≠ '\n') :
      Spells (quote :: content ++ [quote]) (.str content)
  | wildcard : Spells ['_'] .wildcard

theorem spells_of_ofText? {text a} (h : ofText? text = some a) : Spells text a := by
  rw [ofText?] at h
  split at h
  · rename_i letters
    cases h
    exact .word letters
  · split at h
    · rename_i sign
      cases h
      rw [sign]
      exact .wildcard
    · split at h
      · rename_i numeral found
        cases h
        obtain ⟨proper, rfl⟩ := Numeral.ofText?_eq_some_iff.mp found
        exact .number proper
      · obtain ⟨content, found, rfl⟩ := Option.map_eq_some_iff.mp h
        rw [Option.orElse_eq_orElse, Option.orElse_eq_or] at found
        rcases Option.or_eq_some_iff.mp found with double | ⟨-, single⟩
        · obtain ⟨rfl, plain⟩ := unquote?_eq_some_iff.mp double
          exact .str (.inl rfl) plain
        · obtain ⟨rfl, plain⟩ := unquote?_eq_some_iff.mp single
          exact .str (.inr rfl) plain

theorem Spells.head {text a} (h : Spells text a) : ∃ c rest, text = c :: rest ∧
    (c.isAlpha = true ∨ Numeral.Starts c ∨ IsQuote c ∨ c = '_') := by
  cases h with
  | number proper =>
      obtain ⟨c, rest, written, starts⟩ := proper.exists_text_eq_cons
      exact ⟨c, rest, written, .inr (.inl starts)⟩
  | word h =>
      obtain ⟨c, rest, written, alpha⟩ := exists_cons_of_isWord h
      exact ⟨c, rest, written, .inl alpha⟩
  | str kind => exact ⟨_, _, rfl, .inr (.inr (.inl kind))⟩
  | wildcard => exact ⟨'_', [], rfl, .inr (.inr (.inr rfl))⟩

theorem isWord_cons {c} (h : c.isAlpha = false) (rest : List Char) : isWord (c :: rest) = false := by
  simp [isWord, h]

theorem ofText?_of_spells {text a} (h : Spells text a) : ofText? text = some a := by
  rw [ofText?]
  cases h with
  | @number n proper =>
      obtain ⟨c, rest, written, starts⟩ := proper.exists_text_eq_cons
      have notWord : isWord n.text = false := by
        rw [written]
        exact isWord_cons starts.not_alpha rest
      have notSign : n.text ≠ ['_'] := by
        rw [written]
        rintro ⟨rfl, rfl⟩
        rcases starts with h | h <;> cases h
      rw [notWord, if_neg Bool.false_ne_true, if_neg notSign, Numeral.ofText?_text proper]
  | word h => rw [if_pos h]
  | wildcard => rfl
  | @str quote content kind plain =>
      have notSign : quote :: content ++ [quote] ≠ ['_'] := by
        simp
      have notNumeral : Numeral.ofText? (quote :: content ++ [quote]) = none := by
        apply Option.eq_none_iff_forall_ne_some.mpr
        intro n found
        obtain ⟨proper, written⟩ := Numeral.ofText?_eq_some_iff.mp found
        obtain ⟨c, rest, written', starts⟩ := proper.exists_text_eq_cons
        rw [written'] at written
        cases written
        exact kind.not_numeral starts
      have read := unquote?_eq_some_iff.mpr ⟨rfl, plain⟩
      rw [List.cons_append, isWord_cons (kind.not_alpha), if_neg Bool.false_ne_true,
        ← List.cons_append, if_neg notSign, notNumeral]
      simp only [Option.orElse_eq_orElse, Option.orElse_eq_or]
      rcases kind with rfl | rfl
      · rw [read]
        rfl
      · have other : unquote? '"' ('\x27' :: content ++ ['\x27']) = none := by
          apply Option.eq_none_iff_forall_ne_some.mpr
          intro content found
          have := (unquote?_eq_some_iff.mp found).1
          cases this
        rw [other, read]
        rfl

theorem ofText?_bracket {c} (h : c = '[' ∨ c = '(') (rest : List Char) :
    ofText? (c :: rest) = none := by
  apply Option.eq_none_iff_forall_ne_some.mpr
  intro a found
  obtain ⟨d, others, written, starts⟩ := (spells_of_ofText? found).head
  cases written
  rcases h with rfl | rfl
  · rcases starts with h | (h | h) | (h | h) | h <;> cases h
  · rcases starts with h | (h | h) | (h | h) | h <;> cases h

theorem isWord_append_sign (name rest : List Char) : isWord (name ++ '@' :: rest) = false := by
  simp [isWord]

theorem ofText?_named {name} (h : isName name = true) (rest : List Char) :
    ofText? (name ++ '@' :: rest) = none := by
  apply Option.eq_none_iff_forall_ne_some.mpr
  intro a found
  obtain ⟨c, others, rfl, alpha⟩ := exists_cons_of_isWord (isWord_of_isName h)
  have spells := spells_of_ofText? found
  generalize written : c :: others ++ '@' :: rest = text at spells
  cases spells with
  | number proper =>
      obtain ⟨d, tail, start, starts⟩ := proper.exists_text_eq_cons
      rw [start] at written
      cases written
      rw [starts.not_alpha] at alpha
      cases alpha
  | word whole =>
      rw [← written, isWord_append_sign] at whole
      cases whole
  | str kind =>
      rw [(List.cons.inj written).1, kind.not_alpha] at alpha
      cases alpha
  | wildcard =>
      rw [(List.cons.inj written).1] at alpha
      cases alpha

theorem Spells.trim_eq {text a} (h : Spells text a) : Text.trim text = text := by
  cases h with
  | number proper =>
      apply Text.trim_of_solid
      intro c member
      rcases proper.of_mem_text member with rfl | rfl | digit
      · decide
      · decide
      · exact Text.isBlank_of_isDigit digit
  | word letters =>
      apply Text.trim_of_solid
      intro c member
      exact Text.isBlank_of_isAlpha ((isWord_iff.mp letters).2 c member)
  | str kind =>
      have solid := kind.not_blank
      exact Text.trim_enclosed solid solid _
  | wildcard => decide

end Atom

end Destructure
