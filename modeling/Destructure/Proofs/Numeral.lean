import Destructure.Numeral
import Destructure.Proofs.Text.Classes
import Mathlib.Data.List.TakeWhile

/-! # The texts of numerals

Scanning a text for a numeral undoes writing a numeral down, for the parts that a numeral can have:
digits on both sides of a point, or digits alone.
-/

namespace Destructure.Numeral

def text (n : Numeral) : List Char :=
  Decimal.sign n.negative ++ n.whole ++ if n.fraction.isEmpty then [] else '.' :: n.fraction

/-- The parts are made of digits, with one before the point at least. -/
structure Proper (n : Numeral) : Prop where
  whole_ne_nil : n.whole ≠ []
  whole_digits : ∀ c ∈ n.whole, c.isDigit = true
  fraction_digits : ∀ c ∈ n.fraction, c.isDigit = true

theorem digits_append {digits : List Char} (all : ∀ c ∈ digits, c.isDigit = true)
    (rest : List Char) (stop : ∀ c ∈ rest.head?, c.isDigit = false) :
    (digits ++ rest).takeWhile Char.isDigit = digits ∧
      (digits ++ rest).dropWhile Char.isDigit = rest := by
  rw [List.takeWhile_append_of_pos all, List.dropWhile_append_of_pos all]
  cases rest with
  | nil => exact ⟨List.append_nil _, rfl⟩
  | cons c rest =>
      have := stop c rfl
      rw [List.takeWhile_cons_of_neg (by simp [this]), List.dropWhile_cons_of_neg (by simp [this])]
      exact ⟨List.append_nil _, rfl⟩

theorem digit_ne_minus {c : Char} (h : c.isDigit = true) : c ≠ '-' := by
  rintro rfl
  cases h

theorem scan?_sign (negative : Bool) {body : List Char} (digit : ∃ c ∈ body.head?, c.isDigit = true) :
    ((Decimal.sign negative ++ body).head? == some '-') = negative ∧
      (if negative then (Decimal.sign negative ++ body).tail else Decimal.sign negative ++ body) =
        body := by
  cases negative with
  | true => exact ⟨rfl, rfl⟩
  | false =>
      obtain ⟨c, head, isDigit⟩ := digit
      refine ⟨?_, rfl⟩
      rw [Decimal.sign, if_neg Bool.false_ne_true, List.nil_append, Option.mem_def.mp head]
      simpa using digit_ne_minus isDigit

/-- A numeral is scanned up to its end, if what follows cannot belong to it. -/
theorem scan?_text {n : Numeral} (proper : n.Proper) {rest : List Char}
    (stop : ∀ c ∈ rest.head?, c.isDigit = false ∧ c ≠ '.') :
    scan? (n.text ++ rest) = some (n, rest) := by
  obtain ⟨negative, whole, fraction⟩ := n
  obtain ⟨nonempty, digits, fractionDigits⟩ := proper
  have head : ∀ rest, ∃ c ∈ (whole ++ rest).head?, c.isDigit = true := by
    obtain ⟨c, others, rfl⟩ := List.exists_cons_of_ne_nil nonempty
    exact fun rest => ⟨c, rfl, digits c List.mem_cons_self⟩
  have notEmpty : whole.isEmpty = false := List.isEmpty_eq_false_iff.mpr nonempty
  have noDigit : ∀ c ∈ rest.head?, c.isDigit = false := fun c first => (stop c first).1
  cases fraction with
  | nil =>
      obtain ⟨sign, body⟩ := scan?_sign negative (head rest)
      obtain ⟨take, drop⟩ := digits_append digits rest noDigit
      simp only [scan?, text, List.isEmpty_nil, if_true, List.append_nil, List.append_assoc, sign,
        body, take, drop, notEmpty, Bool.false_eq_true, if_false]
      split
      · exact absurd rfl (stop '.' rfl).2
      · rfl
  | cons d ds =>
      obtain ⟨sign, body⟩ := scan?_sign negative (head ('.' :: d :: ds ++ rest))
      obtain ⟨take, drop⟩ := digits_append digits ('.' :: d :: ds ++ rest) (by simp)
      obtain ⟨takeFraction, dropFraction⟩ := digits_append fractionDigits rest noDigit
      simp only [List.cons_append] at sign body take drop takeFraction dropFraction
      simp only [scan?, text, List.isEmpty_cons, Bool.false_eq_true, if_false, List.append_assoc,
        List.cons_append, sign, body, take, drop, notEmpty, takeFraction, dropFraction]

theorem ofText?_text {n : Numeral} (proper : n.Proper) : ofText? n.text = some n := by
  have scanned : scan? (n.text ++ []) = some (n, []) := scan?_text proper (by simp)
  rw [List.append_nil] at scanned
  rw [ofText?, scanned]

theorem text_of_scan? {text rest : List Char} {n : Numeral} (h : scan? text = some (n, rest)) :
    n.Proper ∧ text = n.text ++ rest := by
  simp only [scan?] at h
  have signed : text = Decimal.sign (text.head? == some '-') ++
      if (text.head? == some '-') = true then text.tail else text := by
    cases text with
    | nil => rfl
    | cons c text =>
        by_cases minus : c = '-'
        · subst minus
          rfl
        · have : ((c :: text).head? == some '-') = false := by simpa using minus
          rw [this]
          rfl
  generalize (text.head? == some '-') = negative at h signed
  generalize (if negative = true then text.tail else text) = body at h signed
  have cut := List.takeWhile_append_dropWhile (p := Char.isDigit) (l := body)
  have digits : ∀ c ∈ body.takeWhile Char.isDigit, c.isDigit = true :=
    fun c member => List.mem_takeWhile_imp member
  split at h
  · cases h
  · rename_i notEmpty
    have nonempty : body.takeWhile Char.isDigit ≠ [] := fun empty => notEmpty (by rw [empty]; rfl)
    split at h
    · rename_i tail point
      have cutTail := List.takeWhile_append_dropWhile (p := Char.isDigit) (l := tail)
      have fractionDigits : ∀ c ∈ tail.takeWhile Char.isDigit, c.isDigit = true :=
        fun c member => List.mem_takeWhile_imp member
      split at h
      · cases h
        refine ⟨⟨nonempty, digits, fun c member => absurd member List.not_mem_nil⟩, ?_⟩
        simp only [Numeral.text, List.isEmpty_nil, if_true, List.append_nil, List.append_assoc]
        rw [cut, ← signed]
      · rename_i fractionNotEmpty
        cases h
        refine ⟨⟨nonempty, digits, fractionDigits⟩, ?_⟩
        rw [Numeral.text, if_neg fractionNotEmpty, List.append_assoc, List.append_assoc,
          List.cons_append, cutTail, ← point, cut, ← signed]
    · cases h
      refine ⟨⟨nonempty, digits, fun c member => absurd member List.not_mem_nil⟩, ?_⟩
      simp only [Numeral.text, List.isEmpty_nil, if_true, List.append_nil, List.append_assoc]
      rw [cut, ← signed]

theorem ofText?_eq_some_iff {text : List Char} {n : Numeral} :
    ofText? text = some n ↔ n.Proper ∧ text = n.text := by
  constructor
  · intro h
    rw [ofText?] at h
    split at h
    · rename_i numeral scanned
      cases h
      obtain ⟨proper, written⟩ := text_of_scan? scanned
      exact ⟨proper, by rwa [List.append_nil] at written⟩
    · cases h
  · rintro ⟨proper, rfl⟩
    exact ofText?_text proper

theorem Proper.of_mem_text {n : Numeral} (proper : n.Proper) {c} (h : c ∈ n.text) :
    c = '-' ∨ c = '.' ∨ c.isDigit = true := by
  obtain ⟨negative, whole, fraction⟩ := n
  simp only [text, Decimal.sign, List.mem_append] at h
  rcases h with (sign | inWhole) | rest
  · cases negative with
    | true => exact .inl (List.mem_singleton.mp sign)
    | false => cases sign
  · exact .inr (.inr (proper.whole_digits c inWhole))
  · split at rest
    · cases rest
    · rcases List.mem_cons.mp rest with point | inFraction
      · exact .inr (.inl point)
      · exact .inr (.inr (proper.fraction_digits c inFraction))

/-- Holds of the characters that some numeral starts with. -/
def Starts (c : Char) : Prop :=
  c = '-' ∨ c.isDigit = true

theorem Starts.not_alpha {c} (h : Starts c) : c.isAlpha = false := by
  rcases h with rfl | digit
  · decide
  · exact Text.isAlpha_of_isDigit digit

theorem Proper.exists_text_eq_cons {n : Numeral} (proper : n.Proper) :
    ∃ c rest, n.text = c :: rest ∧ Starts c := by
  obtain ⟨negative, whole, fraction⟩ := n
  obtain ⟨d, ds, rfl⟩ := List.exists_cons_of_ne_nil proper.whole_ne_nil
  cases negative with
  | true => exact ⟨'-', _, rfl, .inl rfl⟩
  | false => exact ⟨d, _, rfl, .inr (proper.whole_digits d List.mem_cons_self)⟩

end Destructure.Numeral
