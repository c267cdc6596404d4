import Destructure.Pattern.Shape
import Destructure.Proofs.Pattern.Atom
import Destructure.Proofs.Text.Division

/-! # The outlines of pattern texts

The shape of a text is found exactly where the text has that outline.  The four outlines exclude each
other by their first characters, so the order in which they are tried does not matter.
-/

namespace Destructure

theorem Enclosure.array_solid : Enclosure.array.Solid := by
  intro c sign
  rcases mem_signs.mp sign with rfl | rfl | rfl <;> rfl

theorem Enclosure.array_join (parts : List (List Char)) :
    [','].intercalate parts = Enclosure.array.join parts := rfl

theorem Enclosure.cons_join (parts : List (List Char)) :
    [':'].intercalate parts = Enclosure.cons.join parts := rfl

theorem Enclosure.cons_solid : Enclosure.cons.Solid := by
  intro c sign
  rcases mem_signs.mp sign with rfl | rfl | rfl <;> rfl

namespace Shape

inductive Outlines : List Char → Shape → Prop where
  | atom {text a} (spells : Atom.Spells text a) : Outlines text (.atom a)
  | array {body items} (fields : Enclosure.array.fields? body = some items) :
      Outlines ('[' :: body ++ [']']) (.array items)
  | cons {body heads tail} (nonempty : heads ≠ [])
      (fields : Enclosure.cons.fields? body = some (heads ++ [tail])) :
      Outlines ('(' :: body ++ [')']) (.cons heads tail)
  | named {name inner} (h : isName name = true) (visible : ¬ Text.Blank inner) :
      Outlines (name ++ '@' :: inner) (.named name inner)

theorem cons?_eq_some_iff {body s} : cons? body = some s ↔
    ∃ heads tail, heads ≠ [] ∧ Enclosure.cons.fields? body = some (heads ++ [tail]) ∧
      s = .cons heads tail := by
  rw [cons?]
  constructor
  · intro h
    split at h
    · cases h
    · rename_i fields found
      split at h
      · rename_i head heads tail front last
        cases h
        obtain ⟨front', rfl⟩ := List.getLast?_eq_some_iff.mp last
        rw [List.dropLast_concat] at front
        exact ⟨head :: heads, tail, List.cons_ne_nil _ _, front ▸ found, rfl⟩
      · cases h
  · rintro ⟨heads, tail, nonempty, fields, rfl⟩
    obtain ⟨head, others, rfl⟩ := List.exists_cons_of_ne_nil nonempty
    simp only [fields, List.dropLast_concat, List.getLast?_concat]

theorem named?_eq_some_iff {text s} : named? text = some s ↔
    ∃ name inner, isName name = true ∧ ¬ Text.Blank inner ∧ text = name ++ '@' :: inner ∧
      s = .named name inner := by
  have visible_iff : ∀ inner, ¬ (Text.trim inner).isEmpty = true ↔ ¬ Text.Blank inner := by
    intro inner
    rw [List.isEmpty_iff, Text.trim_eq_nil_iff]
  rw [named?]
  constructor
  · intro h
    have cut := List.takeWhile_append_dropWhile (p := (· != '@')) (l := text)
    split at h
    · cases h
    · rename_i sign inner rest
      have isSign : sign = '@' := by
        have := List.head_dropWhile_not (· != '@') (l := text) (by simp [rest])
        simpa [rest] using this
      subst isSign
      simp only at h
      split at h
      · rename_i named
        cases h
        refine ⟨_, inner, named.1, (visible_iff inner).mp named.2, ?_, rfl⟩
        rw [← rest, cut]
      · cases h
  · rintro ⟨name, inner, isName, visible, rfl, rfl⟩
    have letters : ∀ c ∈ name, (c != '@') = true := by
      intro c member
      have alpha := (isWord_iff.mp (isWord_of_isName isName)).2 c member
      rw [bne_iff_ne]
      rintro rfl
      cases alpha
    rw [List.dropWhile_append_of_pos letters, List.takeWhile_append_of_pos letters]
    simp [isName, visible, Text.trim_eq_nil_iff]

theorem between?_named {name} (h : isName name = true) (inner : List Char) {first last}
    (bracket : first.isAlpha = false) : between? first last (name ++ '@' :: inner) = none := by
  apply Option.eq_none_iff_forall_ne_some.mpr
  intro body found
  obtain ⟨c, rest, rfl, alpha⟩ := exists_cons_of_isWord (isWord_of_isName h)
  have := (List.cons.inj (between?_eq_some_iff.mp found)).1
  rw [this, bracket] at alpha
  cases alpha

theorem ofText?_eq_some_iff {text s} : ofText? text = some s ↔ Outlines text s := by
  rw [ofText?]
  constructor
  · intro h
    split at h
    · rename_i a found
      cases h
      exact .atom (Atom.spells_of_ofText? found)
    · rename_i body _ found
      obtain rfl := between?_eq_some_iff.mp found
      obtain ⟨items, fields, rfl⟩ := Option.map_eq_some_iff.mp h
      exact .array fields
    · rename_i body _ _ found
      obtain rfl := between?_eq_some_iff.mp found
      obtain ⟨heads, tail, nonempty, fields, rfl⟩ := cons?_eq_some_iff.mp h
      exact .cons nonempty fields
    · obtain ⟨name, inner, isName, visible, rfl, rfl⟩ := named?_eq_some_iff.mp h
      exact .named isName visible
  · intro outlines
    cases outlines with
    | atom spells => rw [Atom.ofText?_of_spells spells]
    | array fields =>
        rw [List.cons_append, Atom.ofText?_bracket (.inl rfl), ← List.cons_append,
          between?_enclosed]
        simp only [array?, fields, Option.map_some]
    | cons nonempty fields =>
        have other : ∀ body, between? '[' ']' ('(' :: body) = none := by
          intro body
          apply Option.eq_none_iff_forall_ne_some.mpr
          intro inside found
          have := (List.cons.inj (between?_eq_some_iff.mp found)).1
          cases this
        rw [List.cons_append, Atom.ofText?_bracket (.inr rfl), other, ← List.cons_append,
          between?_enclosed]
        exact cons?_eq_some_iff.mpr ⟨_, _, nonempty, fields, rfl⟩
    | named isName visible =>
        rw [Atom.ofText?_named isName, between?_named isName _ (by decide),
          between?_named isName _ (by decide)]
        exact named?_eq_some_iff.mpr ⟨_, _, isName, visible, rfl, rfl⟩

end Shape

end Destructure
