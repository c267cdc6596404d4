import Destructure.Pattern.Printer
import Destructure.Proofs.Number
import Destructure.Proofs.Pattern.Composition

/-! # Displayed patterns are read back

The display of a pattern has the signs of every text of that pattern, so whatever text a pattern was
read from, its display falls apart at the same places.  Level by level this leaves only the atoms,
and of those the infinities alone are displayed as something else.
-/

namespace Destructure.Pattern

mutual
/-- The numbers of a pattern, from left to right. -/
def numbers : Pattern → List Number
  | wildcard | ident _ | bool _ | str _ => []
  | number n => [n]
  | array items => numbersEach items
  | cons heads tail => numbersEach heads ++ numbers tail
  | named _ inner => numbers inner

def numbersEach : List Pattern → List Number
  | [] => []
  | p :: ps => numbers p ++ numbersEach ps
end

mutual
/-- The parts are such that some text may have them. -/
def WellFormed : Pattern → Prop
  | wildcard | bool _ => True
  | ident name => isName name.toList = true
  | number n => n ≠ .float .nan
  | str text => ∃ quote, IsQuote quote ∧ ∀ c ∈ text.toList, c ≠ quote ∧ c ≠ '\n'
  | array items => WellFormedEach items
  | cons heads tail => heads ≠ [] ∧ WellFormedEach heads ∧ WellFormed tail
  | named name inner => isName name.toList = true ∧ WellFormed inner

def WellFormedEach : List Pattern → Prop
  | [] => True
  | p :: ps => WellFormed p ∧ WellFormedEach ps
end

theorem wellFormed_atomic {text p} (h : Atomic text p) : p.WellFormed := by
  cases h with
  | number proper => exact Number.ofNumeral_ne_nan _
  | bool => trivial
  | ident h => rwa [WellFormed, String.toList_ofList, ← identifier_iff]
  | @str quote content kind plain =>
      refine ⟨quote, kind, ?_⟩
      rwa [String.toList_ofList]
  | wildcard => trivial

mutual
theorem wellFormed_of_written {parted text p} : Written parted text p → p.WellFormed
  | .surrounded _ _ bare => wellFormed_of_bare bare

theorem wellFormed_of_bare {parted text p} : Bare parted text p → p.WellFormed
  | .atom h => wellFormed_atomic h
  | .emptyArray _ => trivial
  | .array _ _ each => by
      rw [WellFormed]
      exact wellFormedEach_of_written each
  | .cons nonempty _ each final => by
      refine ⟨?_, wellFormedEach_of_written each, wellFormed_of_written final⟩
      rintro rfl
      cases each
      exact nonempty rfl
  | .named identifier body => by
      refine ⟨?_, wellFormed_of_written body⟩
      rwa [String.toList_ofList, ← identifier_iff]

theorem wellFormedEach_of_written {parted texts ps} : WrittenEach parted texts ps →
    WellFormedEach ps
  | .nil => trivial
  | .cons first others => ⟨wellFormed_of_written first, wellFormedEach_of_written others⟩
end

/-! ## Numbers come from numerals -/

/-- A numeral in the text denotes the number. -/
def Denoted (text : List Char) (n : Number) : Prop :=
  ∃ k : Numeral, k.Proper ∧ k.text <:+: text ∧ n = .ofNumeral k

theorem Denoted.mono {s t n} (part : s <:+: t) : Denoted s n → Denoted t n
  | ⟨k, proper, inside, denotes⟩ => ⟨k, proper, inside.trans part, denotes⟩

theorem Denoted.group {sep part : List Char} {parts : List (List Char)} {first last : Char} {n}
    (h : part ∈ parts) (denoted : Denoted part n) :
    Denoted (first :: sep.intercalate parts ++ [last]) n :=
  denoted.mono ((infix_intercalate h).trans ⟨[first], [last], rfl⟩)

theorem denoted_atomic {text p} (h : Atomic text p) : ∀ n ∈ p.numbers, Denoted text n := by
  cases h with
  | @number k proper =>
      intro n member
      rw [List.mem_singleton.mp member]
      exact ⟨k, proper, List.infix_rfl, rfl⟩
  | _ => exact fun n member => absurd member List.not_mem_nil

mutual
theorem denoted_of_written {parted text p} : Written parted text p →
    ∀ n ∈ p.numbers, Denoted text n
  | @Written.surrounded _ before _ after _ _ _ bare, n, member =>
    (denoted_of_bare bare n member).mono ⟨before, after, rfl⟩

theorem denoted_of_bare {parted text p} : Bare parted text p → ∀ n ∈ p.numbers, Denoted text n
  | .atom h, n, member => denoted_atomic h n member
  | .emptyArray _, n, member => absurd member List.not_mem_nil
  | .array _ _ each, n, member => by
      obtain ⟨part, inParts, denoted⟩ := denotedEach_of_written each n member
      exact denoted.group inParts
  | .cons _ _ each final, n, member => by
      rcases List.mem_append.mp member with inHeads | inTail
      · obtain ⟨part, inParts, denoted⟩ := denotedEach_of_written each n inHeads
        exact denoted.group (List.mem_append_left _ inParts)
      · exact (denoted_of_written final n inTail).group
          (List.mem_append_right _ List.mem_cons_self)
  | .named _ body, n, member =>
    (denoted_of_written body n member).mono
      ((List.suffix_cons _ _).trans (List.suffix_append _ _)).isInfix

theorem denotedEach_of_written {parted texts ps} : WrittenEach parted texts ps →
    ∀ n ∈ numbersEach ps, ∃ text ∈ texts, Denoted text n
  | .nil, n, member => absurd member List.not_mem_nil
  | .cons first others, n, member => by
      rcases List.mem_append.mp member with member | member
      · exact ⟨_, List.mem_cons_self, denoted_of_written first n member⟩
      · obtain ⟨text, inTexts, denoted⟩ := denotedEach_of_written others n member
        exact ⟨text, List.mem_cons_of_mem _ inTexts, denoted⟩
end

/-! ## The signs of a display -/

theorem quoteOf_isQuote (text : List Char) : IsQuote (quoteOf text) := by
  rw [quoteOf]
  split
  · exact .inr rfl
  · exact .inl rfl

/-- The display of a number has no signs, and its first character is not blank. -/
theorem display_number {n : Number} (number : n ≠ .float .nan) :
    n.display.filter isSign = [] ∧ ¬ Text.Blank n.display := by
  by_cases bounded : n.IsInfinite
  · obtain ⟨negative, rfl⟩ := bounded
    cases negative <;> exact ⟨rfl, fun blank => absurd (blank 'i' (by decide)) (by decide)⟩
  · obtain ⟨k, proper, written, -⟩ := Number.exists_numeral number bounded
    rw [written]
    refine ⟨filter_numeral proper, fun blank => ?_⟩
    have visible := visible_of_read (read_atom (.number proper))
    exact visible blank

theorem filter_spaced (texts : List (List Char)) :
    ([',', ' '].intercalate texts).filter isSign =
      Enclosure.array.join (texts.map (List.filter isSign)) := by
  cases texts with
  | nil => rfl
  | cons first others =>
      have blank : ∀ text, (' ' :: text).filter isSign = text.filter isSign := fun text => rfl
      rw [intercalate_spaced, Enclosure.array_join, Enclosure.filter_join rfl]
      simp only [List.map_cons, List.map_map, Function.comp_def, blank]

mutual
theorem filter_display (p : Pattern) (h : p.WellFormed) :
    p.display.filter isSign = p.skeleton := by
  cases p with
  | wildcard => rfl
  | ident name => exact filter_name h
  | bool value => cases value <;> rfl
  | number n => exact (display_number h).1
  | str text =>
      have quoted : isSign (quoteOf text.toList) = false := by
        rcases quoteOf_isQuote text.toList with quote | quote <;> rw [quote] <;> rfl
      simp [display, skeleton, quoted]
  | array items =>
      rw [display, filter_enclosed rfl rfl, filter_spaced, filter_displayEach items h, skeleton]
  | cons heads tail =>
      obtain ⟨-, each, final⟩ := h
      rw [display, filter_enclosed rfl rfl, Enclosure.cons_join, Enclosure.filter_join rfl,
        List.map_append, filter_displayEach heads each, List.map_singleton,
        filter_display tail final, skeleton]
  | named name inner =>
      rw [display, List.filter_append, filter_name h.1, List.nil_append,
        List.filter_cons_of_neg (by decide), skeleton]
      exact filter_display inner h.2

theorem filter_displayEach (ps : List Pattern) (h : WellFormedEach ps) :
    (displayEach ps).map (List.filter isSign) = skeletonEach ps := by
  cases ps with
  | nil => rfl
  | cons p ps =>
      rw [displayEach, List.map_cons, filter_display p h.1, filter_displayEach ps h.2, skeletonEach]
end

theorem divides_displayEach {items : List Pattern} (h : WellFormedEach items)
    (divides : Enclosure.array.Divides (skeletonEach items)) :
    Enclosure.array.Divides (displayEach items) := by
  rwa [← Enclosure.divides_map_filter (IsGroup.isSign (.inl rfl)), filter_displayEach items h]

theorem divides_display_cons {heads : List Pattern} {tail : Pattern} (h : WellFormedEach heads)
    (hTail : tail.WellFormed)
    (divides : Enclosure.cons.Divides (skeletonEach heads ++ [skeleton tail])) :
    Enclosure.cons.Divides (displayEach heads ++ [display tail]) := by
  rwa [← Enclosure.divides_map_filter (IsGroup.isSign (.inr rfl)), List.map_append,
    filter_displayEach heads h, List.map_singleton, filter_display tail hTail]

theorem not_blank_cons {c : Char} (solid : Text.isBlank c = false) (rest : List Char) :
    ¬ Text.Blank (c :: rest) := by
  intro blank
  rw [blank c List.mem_cons_self] at solid
  cases solid

theorem visible_display (p : Pattern) (h : p.WellFormed) : ¬ Text.Blank p.display := by
  have named : ∀ {name}, isName name = true → ∀ rest, ¬ Text.Blank (name ++ rest) := by
    intro name isName rest
    obtain ⟨c, others, rfl, alpha⟩ := exists_cons_of_isWord (isWord_of_isName isName)
    exact not_blank_cons (Text.isBlank_of_isAlpha alpha) _
  cases p with
  | wildcard => exact not_blank_cons rfl _
  | ident name =>
      have := named h []
      rwa [List.append_nil] at this
  | bool value => cases value <;> exact not_blank_cons rfl _
  | number n => exact (display_number h).2
  | str text => exact not_blank_cons (quoteOf_isQuote text.toList).not_blank _
  | array items => exact not_blank_cons rfl _
  | cons heads tail => exact not_blank_cons rfl _
  | named name inner => exact named h.1 _

theorem visible_displayEach (ps : List Pattern) (h : WellFormedEach ps) :
    ∀ text ∈ displayEach ps, ¬ Text.Blank text := by
  induction ps with
  | nil => exact fun text member => absurd member List.not_mem_nil
  | cons p ps ih =>
      intro text member
      rcases List.mem_cons.mp member with rfl | member
      · exact visible_display p h.1
      · exact ih h.2 text member

/-! ## Reading a display -/

theorem read_display_number {n : Number} (number : n ≠ .float .nan) :
    read n.display = .ok (.number n) ↔ ¬ n.IsInfinite := by
  by_cases bounded : n.IsInfinite
  · refine ⟨fun same => ?_, fun finite => absurd bounded finite⟩
    obtain ⟨negative, rfl⟩ := bounded
    cases negative with
    | false =>
        have word : read ['i', 'n', 'f'] = .ok (.ident "inf") :=
          read_atom (@Atom.Spells.word ['i', 'n', 'f'] rfl)
        cases word.symm.trans same
    | true =>
        have refused : read ['-', 'i', 'n', 'f'] = .error (.invalidPattern "-inf") :=
          read_of_no_shape (by decide +kernel)
        cases refused.symm.trans same
  · obtain ⟨k, proper, written, denotes⟩ := Number.exists_numeral number bounded
    have same := read_atom (.number proper)
    rw [Atom.toPattern, denotes] at same
    rw [written]
    exact ⟨fun _ => bounded, fun _ => same⟩

theorem plain_quoteOf {text : List Char} {quote} (kind : IsQuote quote)
    (plain : ∀ c ∈ text, c ≠ quote ∧ c ≠ '\n') :
    ∀ c ∈ text, c ≠ quoteOf text ∧ c ≠ '\n' := by
  intro c member
  refine ⟨?_, (plain c member).2⟩
  rw [quoteOf]
  split
  · rename_i double
    -- the text was written in quotes that are not in it, hence in single ones
    have single : quote = '\x27' := by
      apply kind.resolve_left
      rintro rfl
      exact (plain '"' (List.contains_iff_mem.mp double)).1 rfl
    rw [← single]
    exact (plain c member).1
  · rename_i noDouble
    rintro rfl
    exact noDouble (List.contains_iff_mem.mpr member)

theorem toPattern_name {name : String} (h : isName name.toList = true) :
    (Atom.word name.toList).toPattern = .ident name := by
  have free := Option.isNone_iff_eq_none.mp (Bool.and_eq_true_iff.mp h).2
  rw [Atom.toPattern, free, String.ofList_toList]

mutual
/-- The display of a pattern that was read is read back exactly if no number is infinite. -/
theorem read_display_iff (p : Pattern) (h : p.WellFormed) (divided : p.Divided) :
    read p.display = .ok p ↔ ∀ n ∈ p.numbers, ¬ n.IsInfinite := by
  cases p with
  | wildcard => exact iff_of_true (read_atom .wildcard) fun n member => absurd member List.not_mem_nil
  | ident name =>
      have same := read_atom (.word (isWord_of_isName h))
      rw [toPattern_name h] at same
      exact iff_of_true same fun n member => absurd member List.not_mem_nil
  | bool value =>
      refine iff_of_true ?_ fun n member => absurd member List.not_mem_nil
      cases value
      · exact read_atom (@Atom.Spells.word ['f', 'a', 'l', 's', 'e'] rfl)
      · exact read_atom (@Atom.Spells.word ['t', 'r', 'u', 'e'] rfl)
  | number n =>
      rw [display, read_display_number h]
      simp only [numbers, List.mem_singleton, forall_eq]
  | str text =>
      obtain ⟨quote, kind, plain⟩ := h
      have same := read_atom (.str (quoteOf_isQuote text.toList) (plain_quoteOf kind plain))
      rw [Atom.toPattern, String.ofList_toList] at same
      exact iff_of_true same fun n member => absurd member List.not_mem_nil
  | array items =>
      obtain ⟨divides, each⟩ := divided
      rw [display, read_spaced_array_iff (divides_displayEach h divides) (visible_displayEach items h),
        numbers, ← read_displayEach_iff items h each]
      constructor
      · rintro ⟨read, ⟨⟩, each⟩
        exact each
      · exact fun each => ⟨items, rfl, each⟩
  | cons heads tail =>
      obtain ⟨nonempty, formed, formedTail⟩ := h
      obtain ⟨divides, each, dividedTail⟩ := divided
      have some : displayEach heads ≠ [] := by
        rwa [displayEach_eq_map, ne_eq, List.map_eq_nil_iff]
      have visible : ∀ text ∈ displayEach heads ++ [display tail], ¬ Text.Blank text := by
        rw [List.forall_mem_append, List.forall_mem_singleton]
        exact ⟨visible_displayEach heads formed, visible_display tail formedTail⟩
      rw [display, numbers, List.forall_mem_append, ← read_displayEach_iff heads formed each,
        ← read_display_iff tail formedTail dividedTail]
      apply (read_cons_iff some (divides_display_cons formed formedTail divides) visible).trans
      constructor
      · rintro ⟨readHeads, readTail, ⟨⟩, each, final⟩
        exact ⟨each, final⟩
      · intro given
        obtain ⟨each, final⟩ := given
        exact ⟨heads, tail, rfl, each, final⟩
  | named name inner =>
      obtain ⟨isName, formed⟩ := h
      rw [display, read_named_iff isName (visible_display inner formed), String.ofList_toList, numbers,
        ← read_display_iff inner formed divided]
      constructor
      · rintro ⟨read, ⟨⟩, body⟩
        exact body
      · exact fun body => ⟨inner, rfl, body⟩

theorem read_displayEach_iff (ps : List Pattern) (h : WellFormedEach ps) (divided : DividedEach ps) :
    List.Forall₂ (read · = .ok ·) (displayEach ps) ps ↔ ∀ n ∈ numbersEach ps, ¬ n.IsInfinite := by
  cases ps with
  | nil => exact iff_of_true .nil fun n member => absurd member List.not_mem_nil
  | cons p ps =>
      rw [displayEach, List.forall₂_cons, numbersEach, List.forall_mem_append,
        read_display_iff p h.1 divided.1, read_displayEach_iff ps h.2 divided.2]
end

/-- Printing undoes parsing exactly if no number is infinite.  Every number comes from a numeral in
the text, and is infinite exactly if that numeral overflows. -/
theorem parse_toString_iff (t : String) (p : Pattern) (accepted : parse t = .ok p) :
    (parse (toString p) = .ok p ↔ ∀ n ∈ p.numbers, ¬ n.IsInfinite) ∧
      ∀ n ∈ p.numbers, ∃ k : Numeral, k.Proper ∧ k.text <:+: t.toList ∧ n = .ofNumeral k ∧
        (n.IsInfinite ↔ k.Overflows) := by
  obtain ⟨derived, divided⟩ := read_iff.mp accepted
  have printed : parse (toString p) = read p.display := by
    rw [parse_eq_read, toString, instToString, String.toList_ofList]
  constructor
  · rw [printed]
    exact read_display_iff p (wellFormed_of_written derived) divided
  · intro n member
    obtain ⟨k, proper, inside, denotes⟩ := denoted_of_written derived n member
    refine ⟨k, proper, inside, denotes, ?_⟩
    rw [denotes]
    exact Number.isInfinite_ofNumeral_iff k

theorem parse_toString_brackets_in_string :
    parse "['[,]', 07]" = .ok (.array [.str "[,]", .number (.int 7)]) ∧
      parse (toString (.array [.str "[,]", .number (.int 7)] : Pattern)) =
        .ok (.array [.str "[,]", .number (.int 7)]) := by
  have string : read ['\x27', '[', ',', ']', '\x27'] = .ok (.str "[,]") :=
    read_atom (@Atom.Spells.str '\x27' ['[', ',', ']'] (.inr rfl) (by simp))
  have numeral : Numeral.Proper ⟨false, ['0', '7'], []⟩ := ⟨by simp, by simp, by simp⟩
  have number : read ['0', '7'] = .ok (.number (.int 7)) := read_atom (.number numeral)
  have accepted : parse "['[,]', 07]" = .ok (.array [.str "[,]", .number (.int 7)]) :=
    (read_array_of_readEach (.cons string (.cons number .nil))).mpr ⟨by decide, by decide⟩
  refine ⟨accepted, (parse_toString_iff _ _ accepted).1.mpr fun n member => ?_⟩
  rw [List.mem_singleton.mp member]
  rintro ⟨negative, infinite⟩
  cases infinite

end Destructure.Pattern
