import Destructure.Proofs.Pattern.Unambiguous

/-! # Patterns put together from patterns

The grammar derives every group that is put together from derivable parts.  Whether the parser
reads it is up to the parts' signs, those in their strings included: the group is read as the
patterns of its parts exactly if its own delimiters divide the parts.  A name may stand before every
pattern.
-/

namespace Destructure.Pattern

theorem writtenEach_of_readEach {texts ps} (each : List.Forall₂ (read · = .ok ·) texts ps) :
    WrittenEach (fun _ _ => True) texts ps :=
  .of_forall₂ (each.imp fun _ _ result => (read_iff.mp result).1)

theorem dividedEach_of_readEach {texts ps} (each : List.Forall₂ (read · = .ok ·) texts ps) :
    DividedEach ps := by
  induction each with
  | nil => trivial
  | cons first _ ih => exact ⟨(read_iff.mp first).2, ih⟩

theorem Written.spaced {parted text p} (written : Written parted text p) :
    Written parted (' ' :: text) p := by
  have blank : Text.isBlank ' ' = true := rfl
  cases written with
  | surrounded hb ha bare => exact .surrounded (List.forall_mem_cons.mpr ⟨blank, hb⟩) ha bare

theorem WrittenEach.spaced {parted texts ps} (each : WrittenEach parted texts ps) :
    WrittenEach parted (texts.map (' ' :: ·)) ps := by
  induction ps generalizing texts with
  | nil =>
      cases each
      exact .nil
  | cons p ps ih =>
      cases each with
      | cons first others => exact .cons first.spaced (ih others)

theorem Bare.written {parted text p} (bare : Bare parted text p) : Written parted text p := by
  have := Written.surrounded Text.blank_nil Text.blank_nil bare
  rwa [List.nil_append, List.append_nil] at this

theorem intercalate_spaced (c : Char) (text : List Char) (texts : List (List Char)) :
    [c, ' '].intercalate (text :: texts) = [c].intercalate (text :: texts.map (' ' :: ·)) := by
  induction texts generalizing text with
  | nil => rfl
  | cons next texts ih =>
      rw [List.map_cons, List.intercalate_cons_cons, List.intercalate_cons_cons,
        List.intercalate_cons_cons_left, ih]
      simp

/-- Blanks after the commas make no difference to how an array is read. -/
theorem read_spaced_array_iff {texts p} (divides : Enclosure.array.Divides texts)
    (visible : ∀ text ∈ texts, ¬ Text.Blank text) :
    read ('[' :: [',', ' '].intercalate texts ++ [']']) = .ok p ↔
      ∃ items, p = .array items ∧ List.Forall₂ (read · = .ok ·) texts items := by
  cases texts with
  | nil =>
      have empty : read ('[' :: [',', ' '].intercalate [] ++ [']']) = .ok (.array []) :=
        read_emptyArray Text.blank_nil
      rw [empty]
      constructor
      · intro given
        cases given
        exact ⟨[], rfl, .nil⟩
      · rintro ⟨items, rfl, each⟩
        cases each
        rfl
  | cons first others =>
      have spaced : ∀ text, read (' ' :: text) = read text := fun text => read_congr rfl
      have blank : ∀ text, (' ' :: text).filter isSign = text.filter isSign := fun text => rfl
      have dividesSpaced : Enclosure.array.Divides (first :: others.map (' ' :: ·)) := by
        rw [← Enclosure.divides_map_filter (IsGroup.isSign (.inl rfl))] at divides ⊢
        simpa only [List.map_cons, List.map_map, Function.comp_def, blank] using divides
      have visibleSpaced : ∀ text ∈ first :: others.map (' ' :: ·), ¬ Text.Blank text := by
        intro text member
        rcases List.mem_cons.mp member with rfl | member
        · exact visible text List.mem_cons_self
        · obtain ⟨inner, inOthers, rfl⟩ := List.mem_map.mp member
          intro blank
          exact visible inner (List.mem_cons_of_mem _ inOthers) fun c inside =>
            blank c (List.mem_cons_of_mem _ inside)
      rw [intercalate_spaced]
      apply (read_array_iff (List.cons_ne_nil _ _) dividesSpaced visibleSpaced).trans
      simp only [List.forall₂_cons_left_iff, List.forall₂_map_left_iff, spaced]

theorem derives_array {texts ps} (each : WrittenEach (fun _ _ => True) texts ps) :
    Derives ('[' :: [',', ' '].intercalate texts ++ [']']) (.array ps) := by
  cases each with
  | nil => exact (Bare.emptyArray Text.blank_nil).written
  | cons first others =>
      rw [intercalate_spaced]
      exact (Bare.array (List.cons_ne_nil _ _) trivial (.cons first others.spaced)).written

theorem derives_cons {texts ps last p} (nonempty : texts ≠ [])
    (each : WrittenEach (fun _ _ => True) texts ps) (final : Derives last p) :
    Derives ('(' :: [':'].intercalate (texts ++ [last]) ++ [')']) (.cons ps p) :=
  (Bare.cons nonempty trivial each final).written

theorem read_array_of_readEach {texts ps} (each : List.Forall₂ (read · = .ok ·) texts ps) :
    read ('[' :: [',', ' '].intercalate texts ++ [']']) = .ok (.array ps) ↔
      Enclosure.array.Divides texts := by
  have written := writtenEach_of_readEach each
  rw [read_iff, divides_array_iff written]
  constructor
  · intro h
    exact h.2.1
  · intro divides
    exact ⟨derives_array written, divides, dividedEach_of_readEach each⟩

theorem read_cons_of_readEach {texts ps last p} (nonempty : texts ≠ [])
    (each : List.Forall₂ (read · = .ok ·) texts ps) (final : read last = .ok p) :
    read ('(' :: [':'].intercalate (texts ++ [last]) ++ [')']) = .ok (.cons ps p) ↔
      Enclosure.cons.Divides (texts ++ [last]) := by
  have written := writtenEach_of_readEach each
  obtain ⟨derived, divided⟩ := read_iff.mp final
  rw [read_iff, divides_cons_iff written derived]
  constructor
  · intro h
    exact h.2.1
  · intro divides
    exact ⟨derives_cons nonempty written derived, divides, dividedEach_of_readEach each, divided⟩

theorem read_named_of_read {name text p} (isName : isName name = true)
    (body : read text = .ok p) :
    read (name ++ '@' :: text) = .ok (.named (String.ofList name) p) :=
  (read_named_iff isName (visible_of_read body)).mpr ⟨p, rfl, body⟩

theorem forall₂_concat_right {α β : Type} {R : α → β → Prop} {xs : List α} {ys : List β} {y : β}
    (h : List.Forall₂ R xs (ys ++ [y])) :
    ∃ front last, xs = front ++ [last] ∧ List.Forall₂ R front ys ∧ R last y := by
  have front := List.forall₂_take_append xs ys [y] h
  have rest := List.forall₂_drop_append xs ys [y] h
  obtain ⟨last, tail, final, empty, split⟩ := List.forall₂_cons_right_iff.mp rest
  rw [List.forall₂_nil_right_iff.mp empty] at split
  refine ⟨_, last, ?_, front, final⟩
  rw [← split, List.take_append_drop]

theorem divides_of_plain {e texts ps} (group : IsGroup e)
    (each : List.Forall₂ (read · = .ok ·) texts ps) (plain : ∀ p ∈ ps, Plain p.strings) :
    e.Divides texts := by
  rw [← Enclosure.divides_map_filter group.isSign, filter_writtenEach (writtenEach_of_readEach each)]
  apply Enclosure.divides_of_balanced
  intro part member
  rw [skeletonEach_eq_map] at member
  obtain ⟨p, inPatterns, rfl⟩ := List.mem_map.mp member
  exact balanced_of_plain group p (plain p inPatterns)

/-- Texts that parse may be put together into arrays and cons groups exactly if the delimiters of
the group divide them, which is so if no string holds a bracket or a delimiter.  What is not divided
is refused, never taken for another pattern.  Names may always be put before texts that parse. -/
theorem parse_composed (ts : List String) (ps : List Pattern)
    (each : List.Forall₂ (parse · = .ok ·) ts ps) :
    ((parse ("[" ++ ", ".intercalate ts ++ "]") = .ok (.array ps) ↔
        Enclosure.array.Divides (ts.map String.toList)) ∧
      ∀ q, parse ("[" ++ ", ".intercalate ts ++ "]") = .ok q → q = .array ps) ∧
    (∀ heads tail, ps = heads ++ [tail] → heads ≠ [] →
      (parse ("(" ++ ":".intercalate ts ++ ")") = .ok (.cons heads tail) ↔
        Enclosure.cons.Divides (ts.map String.toList)) ∧
      ∀ q, parse ("(" ++ ":".intercalate ts ++ ")") = .ok q → q = .cons heads tail) ∧
    (∀ x t p, isName x.toList = true → parse t = .ok p →
      parse (x ++ "@" ++ t) = .ok (.named x p)) ∧
    ((∀ p ∈ ps, Plain p.strings) → Enclosure.array.Divides (ts.map String.toList) ∧
      Enclosure.cons.Divides (ts.map String.toList)) := by
  have eachRead : List.Forall₂ (read · = .ok ·) (ts.map String.toList) ps := by
    rwa [List.forall₂_map_left_iff]
  refine ⟨?_, ?_, ?_, ?_⟩
  · have composed : ("[" ++ ", ".intercalate ts ++ "]").toList =
        '[' :: [',', ' '].intercalate (ts.map String.toList) ++ [']'] := by
      simp [String.toList_intercalate]
    rw [parse_eq_read, composed, read_array_of_readEach eachRead]
    refine ⟨Iff.rfl, fun q result => ?_⟩
    exact derives_unique (read_iff.mp result).1 (derives_array (writtenEach_of_readEach eachRead))
  · rintro heads tail rfl nonempty
    obtain ⟨front, last, split, eachHead, final⟩ := forall₂_concat_right eachRead
    have some : front ≠ [] := by
      rintro rfl
      exact nonempty (List.forall₂_nil_left_iff.mp eachHead)
    have composed : ("(" ++ ":".intercalate ts ++ ")").toList =
        '(' :: [':'].intercalate (front ++ [last]) ++ [')'] := by
      rw [← split]
      simp [String.toList_intercalate]
    rw [parse_eq_read, composed, split, read_cons_of_readEach some eachHead final]
    refine ⟨Iff.rfl, fun q result => ?_⟩
    exact derives_unique (read_iff.mp result).1
      (derives_cons some (writtenEach_of_readEach eachHead) (read_iff.mp final).1)
  · intro x t p isName body
    rw [parse_eq_read]
    have := read_named_of_read isName body
    rw [String.ofList_toList] at this
    simpa using this
  · intro plain
    exact ⟨divides_of_plain (.inl rfl) eachRead plain, divides_of_plain (.inr rfl) eachRead plain⟩

/-- Both enclosures take the string for a part, since its own brackets are balanced. -/
theorem parse_composed_brackets_in_string :
    List.Forall₂ (parse · = .ok ·) ["'[,]'", "x"] [.str "[,]", .ident "x"] ∧
      parse "['[,]', x]" = .ok (.array [.str "[,]", .ident "x"]) ∧
      parse "('[,]':x)" = .ok (.cons [.str "[,]"] (.ident "x")) ∧
      parse "whole@x" = .ok (.named "whole" (.ident "x")) := by
  have string : parse "'[,]'" = .ok (.str "[,]") :=
    read_atom (@Atom.Spells.str '\x27' ['[', ',', ']'] (.inr rfl) (by simp))
  have ident : parse "x" = .ok (.ident "x") := read_atom (@Atom.Spells.word ['x'] rfl)
  have each : List.Forall₂ (parse · = .ok ·) ["'[,]'", "x"] [.str "[,]", .ident "x"] :=
    .cons string (.cons ident .nil)
  obtain ⟨⟨array, -⟩, cons, named, -⟩ := parse_composed _ _ each
  obtain ⟨cons, -⟩ := cons [.str "[,]"] (.ident "x") rfl (List.cons_ne_nil _ _)
  refine ⟨each, array.mpr ⟨by decide, by decide⟩, cons.mpr ⟨by decide, by decide⟩, ?_⟩
  exact named "whole" "x" _ (by decide) ident

/-- A comma in a string cuts the string in two, though the string parses by itself. -/
theorem parse_comma_in_string :
    parse "\"a,b\"" = .ok (.str "a,b") ∧
      parse ("[" ++ ", ".intercalate ["\"a,b\""] ++ "]") ≠ .ok (.array [.str "a,b"]) ∧
      parse ("[" ++ ", ".intercalate ["\"a,b\""] ++ "]") = .error (.invalidPattern "\"a") := by
  have string : parse "\"a,b\"" = .ok (.str "a,b") :=
    read_atom (@Atom.Spells.str '"' ['a', ',', 'b'] (.inl rfl) (by simp))
  have shape : Shape.ofText? (Text.trim ("[" ++ ", ".intercalate ["\"a,b\""] ++ "]").toList) =
      some (.array [['"', 'a'], ['b', '"']]) := by
    decide +kernel
  have first : read ['"', 'a'] = .error (.invalidPattern "\"a") := read_of_no_shape (by decide +kernel)
  have refused : parse ("[" ++ ", ".intercalate ["\"a,b\""] ++ "]") =
      .error (.invalidPattern "\"a") := by
    rw [parse_eq_read, read_of_array shape, List.mapM_cons, first]
    rfl
  refine ⟨string, fun accepted => ?_, refused⟩
  rw [refused] at accepted
  cases accepted

end Destructure.Pattern
