import Destructure.Value.Display
import Destructure.Proofs.Dispatcher
import Destructure.Proofs.Number
import Destructure.Proofs.Pattern.Backslash
import Destructure.Proofs.Pattern.Composition
import Destructure.Proofs.Text.Quoted
import Destructure.Proofs.Value
import Mathlib.Data.List.Flatten

/-! # Displayed values as patterns

The literal of a value is the pattern that fits the values equal to it and no others.  The display of
a value denotes its literal as long as every character of its strings is displayed as it is and its
lists fall apart at their own commas.

Otherwise the display does not fit the value itself, which is seen by counting backslashes.  A
pattern text has them in its strings only, and the strings of a pattern are among the strings of
every value that fits it.  A character that is escaped in the display adds a backslash to it that the
value does not have.
-/

namespace Destructure

open Pattern (content content_append)

namespace Value

mutual
/-- The pattern that the display of a value stands for.  There is no literal of `null`, and its
display is a name. -/
def literal : Value → Pattern
  | null => .ident "null"
  | bool b => .bool b
  | number n => .number n
  | str text => .str text
  | list items => .array (literalEach items)

def literalEach : List Value → List Pattern
  | [] => []
  | v :: vs => literal v :: literalEach vs
end

theorem literalEach_eq_map (vs : List Value) : literalEach vs = vs.map literal := by
  induction vs with
  | nil => rfl
  | cons v vs ih => rw [literalEach, ih, List.map_cons]

mutual
/-- No part of the value is `null` or a number that is not finite. -/
def HasLiteral : Value → Prop
  | null => False
  | bool _ | str _ => True
  | number n => n.IsFinite
  | list items => HasLiteralEach items

def HasLiteralEach : List Value → Prop
  | [] => True
  | v :: vs => HasLiteral v ∧ HasLiteralEach vs
end

/-- The display of the value is its literal: no character is escaped, and no group is cut inside a
string. -/
structure Verbatim (v : Value) : Prop where
  plain : ∀ c ∈ content v.literal.strings, Text.displayChar c = [c]
  divided : v.literal.Divided

/-! ## What literals fit -/

mutual
theorem destructure_literal (v : Value) (h : v.HasLiteral) (w : Value) :
    v.literal.destructure w = .ok (if w == v then some .empty else none) := by
  cases v with
  | null => exact h.elim
  | bool | number | str => rfl
  | list vs =>
      cases w with
      | list ws =>
          rw [literal, Pattern.destructure]
          split
          · rename_i length
            exact destructureEach_literalEach vs h ws length
          · rename_i length
            have other : ¬ (list ws == list vs) = true := by
              intro same
              have each := beqItems_iff.mp same
              rw [literalEach_eq_map, List.length_map] at length
              exact length each.length_eq
            rw [if_neg other]
      | null | bool | number | str => rfl
termination_by sizeOf v

theorem destructureEach_literalEach (vs : List Value) (h : HasLiteralEach vs) (ws : List Value)
    (length : ws.length = (literalEach vs).length) :
    Pattern.destructureEach (literalEach vs) ws .empty =
      .ok (if beqItems ws vs then some .empty else none) := by
  cases vs with
  | nil =>
      cases List.length_eq_zero_iff.mp length
      rfl
  | cons v vs =>
      cases ws with
      | nil => cases length
      | cons w ws =>
          have shorter : ws.length = (literalEach vs).length := Nat.succ.inj length
          have merged : Bindings.merge .empty .empty = .ok .empty := rfl
          rw [literalEach, Pattern.destructureEach, destructure_literal v h.1 w]
          have first : beqItems (w :: ws) (v :: vs) = (w == v && beqItems ws vs) := rfl
          cases same : w == v with
          | false => simp [first, same]
          | true => simp [first, same, merged, destructureEach_literalEach vs h.2 ws shorter]
termination_by sizeOf vs
end

/-! ## Displays without escapes -/

mutual
theorem derives_display (v : Value) (h : v.HasLiteral)
    (plain : ∀ c ∈ content v.literal.strings, Text.displayChar c = [c]) :
    Pattern.Derives v.display v.literal := by
  cases v with
  | null => exact h.elim
  | bool b =>
      apply Pattern.Bare.written
      apply Pattern.Bare.atom
      apply Pattern.Atomic.bool
      cases b <;> simp [Pattern.InAnyCase, Pattern.truthWord, display]
  | number n =>
      obtain ⟨k, proper, written, denotes⟩ := Number.IsFinite.exists_numeral h
      rw [display, written, literal, ← denotes]
      exact (Pattern.Bare.atom (.number proper)).written
  | str text =>
      have shown : ∀ c ∈ text.toList, Text.displayChar c = [c] := by
        simpa [content, literal, Pattern.strings] using plain
      have raw : text.toList.flatMap Text.displayChar = text.toList := by
        rw [List.flatMap_congr shown, List.flatMap_singleton']
      have quotable : ∀ c ∈ text.toList, c ≠ '"' ∧ c ≠ '\n' := by
        intro c member
        constructor
        · rintro rfl
          cases shown _ member
        · rintro rfl
          cases shown _ member
      have quoted := Pattern.Atomic.str (.inl rfl) quotable
      rw [display, Text.displayString, raw, literal]
      rw [String.ofList_toList] at quoted
      exact (Pattern.Bare.atom quoted).written
  | list items => exact Pattern.derives_array (derives_displayEach items h plain)
termination_by sizeOf v

theorem derives_displayEach (vs : List Value) (h : HasLiteralEach vs)
    (plain : ∀ c ∈ content (Pattern.stringsEach (literalEach vs)), Text.displayChar c = [c]) :
    Pattern.WrittenEach (fun _ _ => True) (displayEach vs) (literalEach vs) := by
  cases vs with
  | nil => exact .nil
  | cons v vs =>
      simp only [literalEach, Pattern.stringsEach, content_append, List.forall_mem_append] at plain
      exact .cons (derives_display v h.1 plain.1) (derives_displayEach vs h.2 plain.2)
termination_by sizeOf vs
end

end Value

namespace Pattern
open Value

mutual
/-- A value that fits a pattern has the strings of the pattern among its own, in their order. -/
theorem Fits.strings {p s v} : Fits p s v → p.strings.Sublist v.literal.strings
  | .wildcard _ | .ident _ _ | .bool _ | .number _ => List.nil_sublist _
  | .str _ => List.Sublist.refl _
  | .array each => each.strings
  | .cons each last => by
      have both := each.strings.append last.strings
      rw [literal, Pattern.strings, literalEach_eq_map, List.map_append, stringsEach_append,
        ← literalEach_eq_map, ← literalEach_eq_map]
      exact both
  | .named body => body.strings

theorem FitsEach.strings {ps s vs} : FitsEach ps s vs →
    (stringsEach ps).Sublist (stringsEach (literalEach vs))
  | .nil => List.Sublist.refl _
  | .cons first others => first.strings.append others.strings
end

end Pattern

namespace Value

/-! ## Escapes -/

/-- A character that is not displayed as it is gains a backslash. -/
theorem displayChar_cases (c : Char) :
    Text.displayChar c = [c] ∨ [c].count '\\' < (Text.displayChar c).count '\\' := by
  have gains : ∀ p ∈ Text.escapes, [p.1].count '\\' < ['\\', p.2].count '\\' := by decide
  have shows := Text.shows_displayChar c
  generalize Text.displayChar c = shown at shows ⊢
  cases shows with
  | plain => exact .inl rfl
  | letter listed => exact .inr (gains _ listed)
  | code backslash =>
      have none : [c].count '\\' = 0 := List.count_eq_zero.mpr (by simpa [eq_comm] using backslash)
      exact .inr (by simp [none])

theorem count_le_displayed (text : List Char) :
    text.count '\\' ≤ (text.flatMap Text.displayChar).count '\\' := by
  induction text with
  | nil => exact Nat.le_refl _
  | cons c text ih =>
      have first : [c].count '\\' ≤ (Text.displayChar c).count '\\' := by
        rcases displayChar_cases c with same | more
        · rw [same]
        · omega
      rw [← List.singleton_append, List.flatMap_append, List.count_append, List.count_append,
        List.flatMap_singleton]
      omega

theorem displayChar_of_count_le {text : List Char}
    (few : (text.flatMap Text.displayChar).count '\\' ≤ text.count '\\') :
    ∀ c ∈ text, Text.displayChar c = [c] := by
  intro c member
  obtain ⟨front, back, rfl⟩ := List.append_of_mem member
  rcases displayChar_cases c with same | more
  · exact same
  · have before := count_le_displayed front
    have after := count_le_displayed back
    rw [← List.singleton_append] at few
    simp only [List.flatMap_append, List.flatMap_singleton, List.count_append] at few
    omega

mutual
theorem count_display (v : Value) (h : v.HasLiteral) :
    v.display.count '\\' = ((content v.literal.strings).flatMap Text.displayChar).count '\\' := by
  cases v with
  | null => exact h.elim
  | bool b => cases b <;> rfl
  | number n =>
      obtain ⟨k, proper, written, -⟩ := Number.IsFinite.exists_numeral h
      rw [display, written, Pattern.count_numeral proper]
      rfl
  | str text => simp [display, Text.displayString, literal, Pattern.strings, content]
  | list items =>
      have inside := count_displayEach items h
      rw [← Pattern.count_intercalate [',', ' '] (by decide)] at inside
      simpa [display, literal, Pattern.strings] using inside
termination_by sizeOf v

theorem count_displayEach (vs : List Value) (h : HasLiteralEach vs) :
    (displayEach vs).flatten.count '\\' =
      ((content (Pattern.stringsEach (literalEach vs))).flatMap Text.displayChar).count '\\' := by
  cases vs with
  | nil => rfl
  | cons v vs =>
      simp [displayEach, literalEach, Pattern.stringsEach, count_display v h.1,
        count_displayEach vs h.2]
termination_by sizeOf vs
end

theorem plain_of_fits {v : Value} {p s} (h : v.HasLiteral) (written : Pattern.Derives v.display p)
    (fit : Pattern.Fits p s v) : ∀ c ∈ content v.literal.strings, Text.displayChar c = [c] := by
  apply displayChar_of_count_le
  -- the display has the backslashes of `p`, which are no more than those of the value
  have shown := Pattern.count_of_written written
  rw [count_display v h] at shown
  rw [shown]
  exact (fit.strings.flatMap String.toList).count_le '\\'

theorem destructure_toString (v w : Value) : Limits.unlimited.destructure (toString v) w =
    Pattern.read v.display >>= (Pattern.destructure · w) := by
  rw [Limits.destructure_eq_bind, toString, instToString, Limits.compile, String.toList_ofList]
  rfl

/-- The display of a value that has a literal fits the values equal to it and no others if it is
verbatim, and otherwise does not fit the value itself. -/
theorem destructure_display (v : Value) (h : v.HasLiteral) :
    (v.Verbatim → ∀ w, Limits.unlimited.destructure (toString v) w =
      .ok (if w == v then some .empty else none)) ∧
    (¬ v.Verbatim → ∀ b, Limits.unlimited.destructure (toString v) v ≠ .ok (some b)) := by
  constructor
  · intro verbatim w
    have read := Pattern.read_iff.mpr ⟨derives_display v h verbatim.plain, verbatim.divided⟩
    rw [destructure_toString, read]
    exact destructure_literal v h w
  · intro altered b matched
    rw [destructure_toString] at matched
    obtain ⟨p, read, fit⟩ := bind_eq_ok_iff.mp matched
    have described := p.destructure_describes v
    rw [fit] at described
    obtain ⟨derived, divided⟩ := Pattern.read_iff.mp read
    have plain := plain_of_fits h derived described.1
    obtain rfl := Pattern.derives_unique derived (derives_display v h plain)
    exact altered ⟨plain, divided⟩

theorem destructure_display_brackets_in_string :
    HasLiteral (.list [.str "[,]", .number (.int 1)]) ∧
      Verbatim (.list [.str "[,]", .number (.int 1)]) ∧
      Limits.unlimited.destructure (toString (Value.list [.str "[,]", .number (.int 1)]))
        (.list [.str "[,]", .number (.float (.ofInt 1))]) = .ok (some .empty) := by
  have literal : HasLiteral (.list [.str "[,]", .number (.int 1)]) := ⟨trivial, trivial, trivial⟩
  have plain : ['[', ',', ']'].all (fun c => Text.displayChar c == [c]) = true := by decide +kernel
  have verbatim : Verbatim (.list [.str "[,]", .number (.int 1)]) :=
    ⟨fun c member => eq_of_beq (List.all_eq_true.mp plain c member),
      ⟨by decide, by decide⟩, trivial, trivial, trivial⟩
  have same : (Value.list [.str "[,]", .number (.float (.ofInt 1))] ==
      .list [.str "[,]", .number (.int 1)]) = true := by
    decide +kernel
  have fits := (destructure_display _ literal).1 verbatim
    (.list [.str "[,]", .number (.float (.ofInt 1))])
  rw [same] at fits
  exact ⟨literal, verbatim, fits⟩

/-- The backslash is doubled in the display, which fits the string with two of them. -/
theorem display_backslash :
    HasLiteral (.str "a\\b") ∧ (Value.str "a\\b" == .str "a\\b") = true ∧
      Limits.unlimited.destructure (toString (Value.str "a\\b")) (.str "a\\b") = .ok none ∧
      Limits.unlimited.destructure (toString (Value.str "a\\b")) (.str "a\\\\b") =
        .ok (some .empty) := by
  have shown : (Value.str "a\\b").display = ['"', 'a', '\\', '\\', 'b', '"'] := by decide +kernel
  have read : Pattern.read ['"', 'a', '\\', '\\', 'b', '"'] = .ok (.str "a\\\\b") :=
    Pattern.read_atom (@Atom.Spells.str '"' ['a', '\\', '\\', 'b'] (.inl rfl) (by simp))
  refine ⟨trivial, rfl, ?_, ?_⟩
  all_goals
    rw [destructure_toString, shown, read]
    rfl

end Value

end Destructure
