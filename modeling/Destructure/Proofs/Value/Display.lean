import Destructure.Value.Display
import Destructure.Proofs.Number
import Destructure.Proofs.Text.Quoted

/-! # Displayed values are unambiguous

The first character of a display tells the kind of the value.  Strings and lists tell by themselves
where they end; a number ends where a comma, a bracket or nothing comes after it, and in a displayed
list nothing else does.  So a display can be taken off the front of a text in one way only, and no two
values are displayed alike.
-/

namespace Destructure

/-- What may come after an item of a displayed list: the sign in front of the next item, or the bracket
that closes the list.  Nothing comes after a value that stands alone. -/
def EndsItem (rest : List Char) : Prop :=
  ∀ c ∈ rest.head?, c = ',' ∨ c = ']'

theorem endsItem_nil : EndsItem [] := nofun

theorem endsItem_sign {c : Char} (sign : c = ',' ∨ c = ']') (rest : List Char) :
    EndsItem (c :: rest) := by
  intro d first
  cases first
  exact sign

/-! ## Numbers -/

namespace Number

theorem eq_of_not_isFinite {n : Number} (h : ¬ n.IsFinite) :
    n = float .nan ∨ n = float (.infinite true) ∨ n = float (.infinite false) := by
  cases n with
  | int i => exact absurd trivial h
  | float x =>
      cases x with
      | nan => exact .inl rfl
      | infinite negative =>
          cases negative
          · exact .inr (.inr rfl)
          · exact .inr (.inl rfl)
      | finite negative rank => exact absurd rfl h

theorem exists_display_eq_cons (n : Number) : ∃ c rest, n.display = c :: rest ∧
    (Numeral.Starts c ∨ c = 'N' ∨ c = 'i') := by
  by_cases finite : n.IsFinite
  · obtain ⟨k, proper, written, -⟩ := finite.exists_numeral
    obtain ⟨c, rest, front, starts⟩ := proper.exists_text_eq_cons
    exact ⟨c, rest, written.trans front, .inl starts⟩
  · obtain rfl | rfl | rfl := eq_of_not_isFinite finite
    · exact ⟨_, _, rfl, .inr (.inl rfl)⟩
    · exact ⟨_, _, rfl, .inl (.inl rfl)⟩
    · exact ⟨_, _, rfl, .inr (.inr rfl)⟩

/-- The display of a finite number is a numeral of it, which is scanned up to its end. -/
theorem scan?_display {n : Number} (finite : n.IsFinite) : ∃ k, ofNumeral k = n ∧
    ∀ rest, EndsItem rest → Numeral.scan? (n.display ++ rest) = some (k, rest) := by
  obtain ⟨k, proper, written, denotes⟩ := finite.exists_numeral
  refine ⟨k, denotes, ?_⟩
  intro rest ends
  rw [written]
  apply Numeral.scan?_text proper
  intro c first
  rcases ends c first with rfl | rfl <;> decide

/-- No numeral stands in front of the display of any other number. -/
theorem scan?_display_eq_none {n : Number} (h : ¬ n.IsFinite) (rest : List Char) :
    Numeral.scan? (n.display ++ rest) = none := by
  obtain rfl | rfl | rfl := eq_of_not_isFinite h <;> rfl

theorem display_append_inj {m n : Number} {s t : List Char} (endsLeft : EndsItem s)
    (endsRight : EndsItem t) (same : m.display ++ s = n.display ++ t) : m = n ∧ s = t := by
  have scanned := congrArg Numeral.scan? same
  by_cases left : m.IsFinite
  · obtain ⟨k, rfl, scan⟩ := scan?_display left
    rw [scan s endsLeft] at scanned
    by_cases right : n.IsFinite
    · obtain ⟨k', rfl, scan'⟩ := scan?_display right
      rw [scan' t endsRight] at scanned
      cases scanned
      exact ⟨rfl, rfl⟩
    · rw [scan?_display_eq_none right] at scanned
      cases scanned
  · rw [scan?_display_eq_none left] at scanned
    by_cases right : n.IsFinite
    · obtain ⟨k, rfl, scan⟩ := scan?_display right
      rw [scan t endsRight] at scanned
      cases scanned
    · -- three words without a common first character
      obtain rfl | rfl | rfl := eq_of_not_isFinite left <;>
        obtain rfl | rfl | rfl := eq_of_not_isFinite right <;>
          simp_all [display, Decimal.sign]

end Number

namespace Value

/-! ## Kinds of values -/

inductive Kind where
  | null
  | bool
  | number
  | str
  | list

def kind : Value → Kind
  | null => .null
  | bool _ => .bool
  | number _ => .number
  | str _ => .str
  | list _ => .list

/-- The kind of the values whose displays start with this character. -/
def Kind.ofInitial (c : Char) : Kind :=
  if c = 'n' then .null
  else if c = 't' ∨ c = 'f' then .bool
  else if c = '"' then .str
  else if c = '[' then .list
  else .number

theorem Kind.ofInitial_number {c : Char} (h : Numeral.Starts c ∨ c = 'N' ∨ c = 'i') :
    ofInitial c = .number ∧ c ≠ ']' := by
  rcases h with (rfl | digit) | rfl | rfl
  · exact ⟨rfl, by decide⟩
  · have other : ∀ d : Char, d.isDigit = false → c ≠ d := by
      rintro d noDigit rfl
      rw [digit] at noDigit
      cases noDigit
    simp [ofInitial, other]
  · exact ⟨rfl, by decide⟩
  · exact ⟨rfl, by decide⟩

/-- The first character of a display tells the kind of the value, and does not close a list. -/
theorem exists_display_eq_cons (v : Value) :
    ∃ c rest, v.display = c :: rest ∧ Kind.ofInitial c = v.kind ∧ c ≠ ']' := by
  cases v with
  | null => exact ⟨_, _, rfl, rfl, by decide⟩
  | bool b => cases b <;> exact ⟨_, _, rfl, rfl, by decide⟩
  | number n =>
      obtain ⟨c, rest, front, initial⟩ := n.exists_display_eq_cons
      exact ⟨c, rest, front, Kind.ofInitial_number initial⟩
  | str text => exact ⟨_, _, rfl, rfl, by decide⟩
  | list items => exact ⟨_, _, rfl, rfl, by decide⟩

theorem kind_of_display_append {v w : Value} {s t : List Char}
    (same : v.display ++ s = w.display ++ t) : v.kind = w.kind := by
  obtain ⟨c, rest, front, kind, -⟩ := v.exists_display_eq_cons
  obtain ⟨c', rest', front', kind', -⟩ := w.exists_display_eq_cons
  rw [front, front'] at same
  obtain ⟨rfl, -⟩ := List.cons.inj same
  exact kind.symm.trans kind'

theorem display_append_ne_closing (v : Value) (s t : List Char) : v.display ++ s ≠ ']' :: t := by
  intro same
  obtain ⟨c, rest, front, -, other⟩ := v.exists_display_eq_cons
  rw [front] at same
  exact other (List.cons.inj same).1

/-! ## Values -/

/-- What comes after an item of a displayed list, up to the end of the list and beyond. -/
def afterItem : List Value → List Char → List Char
  | [], rest => ']' :: rest
  | v :: vs, rest => ',' :: ' ' :: (v.display ++ afterItem vs rest)

theorem endsItem_afterItem (vs : List Value) (rest : List Char) : EndsItem (afterItem vs rest) := by
  cases vs with
  | nil => exact endsItem_sign (.inr rfl) _
  | cons v vs => exact endsItem_sign (.inl rfl) _

theorem displayItems_cons (v : Value) (vs : List Value) (rest : List Char) :
    [',', ' '].intercalate (displayEach (v :: vs)) ++ ']' :: rest =
      v.display ++ afterItem vs rest := by
  induction vs generalizing v with
  | nil => simp [displayEach, afterItem]
  | cons w ws ih =>
      simp only [displayEach] at ih
      simp [displayEach, afterItem, List.intercalate_cons_cons, ih]

mutual
/-- A display is told from what comes after it, and so is the value.  Only a number needs the rest to
end it. -/
theorem display_append_inj (v : Value) {w : Value} {s t : List Char} (endsLeft : EndsItem s)
    (endsRight : EndsItem t) (same : v.display ++ s = w.display ++ t) : v = w ∧ s = t := by
  have kinds := kind_of_display_append same
  cases v with
  | null =>
      cases w with
      | null => exact ⟨rfl, List.append_cancel_left same⟩
      | bool | number | str | list => cases kinds
  | bool a =>
      cases w with
      | bool b => cases a <;> cases b <;> simp_all [display]
      | null | number | str | list => cases kinds
  | number m =>
      cases w with
      | number n =>
          obtain ⟨rfl, rest⟩ := Number.display_append_inj endsLeft endsRight same
          exact ⟨rfl, rest⟩
      | null | bool | str | list => cases kinds
  | str a =>
      cases w with
      | str b =>
          obtain ⟨contents, rest⟩ := Text.displayString_append_inj same
          exact ⟨congrArg str (String.toList_inj.mp contents), rest⟩
      | null | bool | number | list => cases kinds
  | list vs =>
      cases w with
      | list ws =>
          simp only [display, List.cons_append, List.append_assoc, List.nil_append,
            List.cons.injEq, true_and] at same
          obtain ⟨rfl, rest⟩ := displayEach_append_inj vs same
          exact ⟨rfl, rest⟩
      | null | bool | number | str => cases kinds
termination_by sizeOf v

/-- The items are taken with the bracket that closes their list. -/
theorem displayEach_append_inj (vs : List Value) {ws : List Value} {s t : List Char}
    (same : [',', ' '].intercalate (displayEach vs) ++ ']' :: s =
      [',', ' '].intercalate (displayEach ws) ++ ']' :: t) : vs = ws ∧ s = t := by
  cases vs with
  | nil =>
      cases ws with
      | nil => exact ⟨rfl, (List.cons.inj same).2⟩
      | cons w ws =>
          rw [displayItems_cons] at same
          exact absurd same.symm (w.display_append_ne_closing _ _)
  | cons v vs =>
      rw [displayItems_cons] at same
      cases ws with
      | nil => exact absurd same (v.display_append_ne_closing _ _)
      | cons w ws =>
          rw [displayItems_cons] at same
          obtain ⟨rfl, others⟩ := display_append_inj v (endsItem_afterItem vs s)
            (endsItem_afterItem ws t) same
          obtain ⟨rfl, rest⟩ := afterItem_inj vs others
          exact ⟨rfl, rest⟩
termination_by sizeOf vs

theorem afterItem_inj (vs : List Value) {ws : List Value} {s t : List Char}
    (same : afterItem vs s = afterItem ws t) : vs = ws ∧ s = t := by
  cases vs with
  | nil =>
      cases ws with
      | nil => exact ⟨rfl, (List.cons.inj same).2⟩
      | cons w ws => cases (List.cons.inj same).1
  | cons v vs =>
      cases ws with
      | nil => cases (List.cons.inj same).1
      | cons w ws =>
          simp only [afterItem, List.cons.injEq, true_and] at same
          obtain ⟨rfl, others⟩ := display_append_inj v (endsItem_afterItem vs s)
            (endsItem_afterItem ws t) same
          obtain ⟨rfl, rest⟩ := afterItem_inj vs others
          exact ⟨rfl, rest⟩
termination_by sizeOf vs
end

/-- No two values are displayed alike.  The display tells the kinds of all parts, an integer from a
floating point number and one zero from the other, every character of the strings, and the items of the
lists in their order.  There is one `nan` only, so it needs no exception. -/
theorem toString_inj {v w : Value} : toString v = toString w ↔ v = w := by
  constructor
  · intro same
    have displays : v.display ++ [] = w.display ++ [] := by
      rw [List.append_nil, List.append_nil]
      exact String.ofList_injective same
    exact (display_append_inj v endsItem_nil endsItem_nil displays).1
  · exact congrArg toString

end Value

end Destructure
