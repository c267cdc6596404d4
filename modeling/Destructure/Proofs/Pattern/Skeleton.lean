import Destructure.Proofs.Pattern.Grammar
import Destructure.Proofs.Pattern.Shape

/-! # Skeletons of pattern texts

All texts of one pattern have the same brackets and delimiters in the same order, however they are
laid out and quoted.  Division looks at nothing else, so it treats the texts of one pattern alike.
The skeleton of a pattern without signs in its strings is balanced, and then every text of the
pattern is legible.
-/

namespace Destructure.Pattern

def IsGroup (e : Enclosure) : Prop :=
  e = .array ∨ e = .cons

theorem IsGroup.isSign {e} (group : IsGroup e) : ∀ c ∈ e.signs, isSign c = true := by
  intro c sign
  rcases group with rfl | rfl <;> rcases Enclosure.mem_signs.mp sign with rfl | rfl | rfl <;> rfl

theorem isSign_eq_false {P : Char → Bool} (h : [',', ':', '[', ']', '(', ')'].all (!P ·) = true)
    {c} (holds : P c = true) : isSign c = false := by
  cases sign : isSign c with
  | false => rfl
  | true =>
      have := List.all_eq_true.mp h c (List.contains_iff_mem.mp sign)
      simp [holds] at this

theorem isSign_of_isBlank {c} (h : Text.isBlank c = true) : isSign c = false :=
  isSign_eq_false rfl h

theorem isSign_of_isAlpha {c : Char} (h : c.isAlpha = true) : isSign c = false :=
  isSign_eq_false rfl h

theorem isSign_of_isDigit {c : Char} (h : c.isDigit = true) : isSign c = false :=
  isSign_eq_false rfl h

theorem filter_isSign_eq_nil {text : List Char} (h : ∀ c ∈ text, isSign c = false) :
    text.filter isSign = [] := by
  rw [List.filter_eq_nil_iff]
  intro c member sign
  rw [h c member] at sign
  cases sign

theorem filter_blank {text} (h : Text.Blank text) : text.filter isSign = [] :=
  filter_isSign_eq_nil fun c member => isSign_of_isBlank (h c member)

theorem filter_word {text} (h : isWord text = true) : text.filter isSign = [] :=
  filter_isSign_eq_nil fun c member => isSign_of_isAlpha ((isWord_iff.mp h).2 c member)

theorem filter_name {text} (h : isName text = true) : text.filter isSign = [] :=
  filter_word (isWord_of_isName h)

theorem filter_numeral {n : Numeral} (h : n.Proper) : n.text.filter isSign = [] := by
  apply filter_isSign_eq_nil
  intro c member
  rcases h.of_mem_text member with rfl | rfl | digit
  · rfl
  · rfl
  · exact isSign_of_isDigit digit

theorem filter_atomic {text p} (h : Atomic text p) : text.filter isSign = p.skeleton := by
  cases h with
  | number proper => exact filter_numeral proper
  | bool h => exact filter_word h.isWord
  | ident h => exact filter_word h.isWord
  | @str quote content kind plain =>
      have quoted : isSign quote = false := by
        rcases kind with rfl | rfl <;> rfl
      simp [skeleton, quoted]
  | wildcard => rfl

theorem filter_enclosed {first last} (hf : isSign first = true) (hl : isSign last = true)
    (body : List Char) :
    (first :: body ++ [last]).filter isSign = first :: body.filter isSign ++ [last] := by
  simp [hf, hl]

mutual
/-- The signs of a text are those of its pattern. -/
theorem filter_written {parted text p} : Written parted text p →
    text.filter isSign = p.skeleton
  | .surrounded hb ha bare => by
      rw [List.filter_append, List.filter_append, filter_blank hb, filter_blank ha,
        List.nil_append, List.append_nil]
      exact filter_bare bare

theorem filter_bare {parted text p} : Bare parted text p → text.filter isSign = p.skeleton
  | .atom h => filter_atomic h
  | .emptyArray blank => by
      rw [filter_enclosed rfl rfl, filter_blank blank]
      rfl
  | .array _ _ each => by
      rw [filter_enclosed rfl rfl, Enclosure.array_join, Enclosure.filter_join rfl,
        filter_writtenEach each, skeleton]
  | .cons _ _ each final => by
      rw [filter_enclosed rfl rfl, Enclosure.cons_join, Enclosure.filter_join rfl, List.map_append,
        filter_writtenEach each, List.map_singleton, filter_written final, skeleton]
  | .named identifier body => by
      rw [List.filter_append, filter_word identifier.isWord, List.nil_append,
        List.filter_cons_of_neg (by decide), skeleton]
      exact filter_written body

theorem filter_writtenEach {parted texts ps} : WrittenEach parted texts ps →
    texts.map (List.filter isSign) = skeletonEach ps
  | .nil => rfl
  | .cons first others => by
      rw [List.map_cons, skeletonEach, filter_written first, filter_writtenEach others]
end

/-! ## Legible texts are the texts of divided patterns -/

mutual
/-- Every group is divided at its own delimiters only. -/
def Divided : Pattern → Prop
  | wildcard | ident _ | bool _ | number _ | str _ => True
  | array items => Enclosure.array.Divides (skeletonEach items) ∧ DividedEach items
  | cons heads tail =>
    Enclosure.cons.Divides (skeletonEach heads ++ [skeleton tail]) ∧ DividedEach heads ∧
      Divided tail
  | named _ inner => Divided inner

def DividedEach : List Pattern → Prop
  | [] => True
  | p :: ps => Divided p ∧ DividedEach ps
end

theorem divides_array_iff {parted texts ps} (each : WrittenEach parted texts ps) :
    Enclosure.array.Divides texts ↔ Enclosure.array.Divides (skeletonEach ps) := by
  rw [← filter_writtenEach each]
  exact (Enclosure.divides_map_filter (IsGroup.isSign (.inl rfl))).symm

theorem divides_cons_iff {parted texts ps last p} (each : WrittenEach parted texts ps)
    (final : Written parted last p) : Enclosure.cons.Divides (texts ++ [last]) ↔
      Enclosure.cons.Divides (skeletonEach ps ++ [skeleton p]) := by
  rw [← filter_writtenEach each, ← filter_written final, ← List.map_singleton, ← List.map_append]
  exact (Enclosure.divides_map_filter (IsGroup.isSign (.inr rfl))).symm

theorem divided_atomic {text p} (h : Atomic text p) : p.Divided := by
  cases h <;> trivial

mutual
theorem derives_of_written {parted text p} : Written parted text p → Derives text p
  | .surrounded hb ha bare => .surrounded hb ha (derives_of_bare bare)

theorem derives_of_bare {parted text p} : Bare parted text p → Bare (fun _ _ => True) text p
  | .atom h => .atom h
  | .emptyArray blank => .emptyArray blank
  | .array nonempty _ each => .array nonempty trivial (derivesEach_of_written each)
  | .cons nonempty _ each final =>
    .cons nonempty trivial (derivesEach_of_written each) (derives_of_written final)
  | .named identifier body => .named identifier (derives_of_written body)

theorem derivesEach_of_written {parted texts ps} : WrittenEach parted texts ps →
    WrittenEach (fun _ _ => True) texts ps
  | .nil => .nil
  | .cons first others => .cons (derives_of_written first) (derivesEach_of_written others)
end

mutual
theorem divided_of_legible {text p} : Legible text p → p.Divided
  | .surrounded _ _ bare => divided_of_bare bare

theorem divided_of_bare {text p} : Bare Enclosure.Divides text p → p.Divided
  | .atom h => divided_atomic h
  | .emptyArray _ => ⟨Enclosure.divides_of_balanced (by simp [skeletonEach]), trivial⟩
  | .array _ divides each => ⟨(divides_array_iff each).mp divides, dividedEach_of_legible each⟩
  | .cons _ divides each final =>
    ⟨(divides_cons_iff each final).mp divides, dividedEach_of_legible each,
      divided_of_legible final⟩
  | .named _ body => by
      rw [Divided]
      exact divided_of_legible body

theorem dividedEach_of_legible {texts ps} : WrittenEach Enclosure.Divides texts ps →
    DividedEach ps
  | .nil => trivial
  | .cons first others => ⟨divided_of_legible first, dividedEach_of_legible others⟩
end

mutual
theorem legible_of_derives {text p} : Derives text p → p.Divided → Legible text p
  | .surrounded hb ha bare, divided => .surrounded hb ha (legible_of_bare bare divided)

theorem legible_of_bare {text p} : Bare (fun _ _ => True) text p → p.Divided →
    Bare Enclosure.Divides text p
  | .atom h, _ => .atom h
  | .emptyArray blank, _ => .emptyArray blank
  | .array nonempty _ each, ⟨divides, others⟩ =>
    .array nonempty ((divides_array_iff each).mpr divides) (legibleEach_of_derives each others)
  | .cons nonempty _ each final, ⟨divides, others, last⟩ =>
    .cons nonempty ((divides_cons_iff each final).mpr divides)
      (legibleEach_of_derives each others) (legible_of_derives final last)
  | .named identifier body, divided => .named identifier (legible_of_derives body divided)

theorem legibleEach_of_derives {texts ps} : WrittenEach (fun _ _ => True) texts ps →
    DividedEach ps → WrittenEach Enclosure.Divides texts ps
  | .nil, _ => .nil
  | .cons first others, ⟨divided, each⟩ =>
    .cons (legible_of_derives first divided) (legibleEach_of_derives others each)
end

theorem legible_iff {text p} : Legible text p ↔ Derives text p ∧ p.Divided :=
  ⟨fun h => ⟨derives_of_written h, divided_of_legible h⟩, fun ⟨h, d⟩ => legible_of_derives h d⟩

/-! ## Patterns without signs in their strings -/

/-- None of the strings has a bracket or a delimiter in it. -/
def Plain (texts : List String) : Prop :=
  ∀ s ∈ texts, ∀ c ∈ s.toList, isSign c = false

theorem plain_append {texts others} : Plain (texts ++ others) ↔ Plain texts ∧ Plain others := by
  simp only [Plain, List.mem_append, or_imp, forall_and]

theorem IsGroup.distinct {e} (group : IsGroup e) : e.Distinct := by
  rcases group with rfl | rfl <;> constructor <;> decide

/-- Balance goes from the parts of a group to the group, whichever of the two enclosures is meant on
either side. -/
theorem balanced_group {e e' : Enclosure} (group : IsGroup e) (group' : IsGroup e') {parts}
    (each : ∀ part ∈ parts, e.Balanced part) :
    e.Balanced (e'.opening :: e'.join parts ++ [e'.closing]) := by
  by_cases same : e' = e
  · rw [same]
    exact Enclosure.balanced_enclosed group.distinct each
  · have foreign : ∀ c ∈ e'.signs, c ∉ e.signs := by
      intro c sign
      rcases group with rfl | rfl <;> rcases group' with rfl | rfl
      · exact absurd rfl same
      · rcases Enclosure.mem_signs.mp sign with rfl | rfl | rfl <;> decide
      · rcases Enclosure.mem_signs.mp sign with rfl | rfl | rfl <;> decide
      · exact absurd rfl same
    have single : ∀ c ∈ e'.signs, e.Balanced [c] := by
      intro c member
      apply Enclosure.balanced_of_no_sign
      intro d h
      rw [List.mem_singleton.mp h]
      exact foreign c member
    have inside := Enclosure.balanced_join_foreign (foreign _ List.mem_cons_self) each
    have opening := single e'.opening (by simp [Enclosure.signs])
    have closing := single e'.closing (by simp [Enclosure.signs])
    exact Enclosure.balanced_append (Enclosure.balanced_append opening inside) closing

mutual
theorem balanced_of_plain {e} (group : IsGroup e) (p : Pattern) (plain : Plain p.strings) :
    e.Balanced p.skeleton := by
  cases p with
  | wildcard | ident | bool | number => exact Enclosure.balanced_nil
  | str text =>
      rw [skeleton, filter_isSign_eq_nil (plain text List.mem_cons_self)]
      exact Enclosure.balanced_nil
  | array items => exact balanced_group group (.inl rfl) (balancedEach_of_plain group items plain)
  | cons heads tail =>
      obtain ⟨front, last⟩ := plain_append.mp plain
      apply balanced_group group (.inr rfl)
      intro part member
      rcases List.mem_append.mp member with member | member
      · exact balancedEach_of_plain group heads front part member
      · rw [List.mem_singleton.mp member]
        exact balanced_of_plain group tail last
  | named name inner => exact balanced_of_plain group inner plain

theorem balancedEach_of_plain {e} (group : IsGroup e) (ps : List Pattern)
    (plain : Plain (stringsEach ps)) : ∀ part ∈ skeletonEach ps, e.Balanced part := by
  cases ps with
  | nil => exact fun part member => absurd member List.not_mem_nil
  | cons p ps =>
      obtain ⟨first, others⟩ := plain_append.mp plain
      intro part member
      rcases List.mem_cons.mp member with rfl | member
      · exact balanced_of_plain group p first
      · exact balancedEach_of_plain group ps others part member
end

mutual
theorem divided_of_plain (p : Pattern) (plain : Plain p.strings) : p.Divided := by
  cases p with
  | wildcard | ident | bool | number | str => trivial
  | array items =>
      have balanced := balancedEach_of_plain (.inl rfl) items plain
      exact ⟨Enclosure.divides_of_balanced balanced, dividedEach_of_plain items plain⟩
  | cons heads tail =>
      obtain ⟨front, last⟩ := plain_append.mp plain
      refine ⟨Enclosure.divides_of_balanced fun part member => ?_,
        dividedEach_of_plain heads front, divided_of_plain tail last⟩
      rcases List.mem_append.mp member with member | member
      · exact balancedEach_of_plain (.inr rfl) heads front part member
      · rw [List.mem_singleton.mp member]
        exact balanced_of_plain (.inr rfl) tail last
  | named name inner =>
      rw [Divided]
      exact divided_of_plain inner plain

theorem dividedEach_of_plain (ps : List Pattern) (plain : Plain (stringsEach ps)) :
    DividedEach ps := by
  cases ps with
  | nil => trivial
  | cons p ps =>
      obtain ⟨first, others⟩ := plain_append.mp plain
      exact ⟨divided_of_plain p first, dividedEach_of_plain ps others⟩
end

end Destructure.Pattern
