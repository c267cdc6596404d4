import Destructure.Text.Fields
import Destructure.Proofs.Text.Trimming

/-! # Dividing a text and joining its parts

Cutting a text and joining parts with the delimiter are inverse to each other on parts that
`Divides` admits: the scan meets no cut inside a part, and is back at depth zero at the end of every
part but the last.  The last part may end anywhere, since nothing is cut after it.

Both conditions depend only on the three signs of the enclosure, in their order.  Every other
character of a part is immaterial, so texts with the same signs are divided alike.
-/

namespace Destructure

theorem infix_intercalate {sep part : List Char} {parts : List (List Char)} (h : part ∈ parts) :
    part <:+: sep.intercalate parts := by
  induction parts with
  | nil => cases h
  | cons first parts ih =>
      cases parts with
      | nil =>
          rw [List.mem_singleton.mp h]
          exact ⟨[], [], by simp⟩
      | cons next rest =>
          rw [List.intercalate_cons_cons]
          rcases List.mem_cons.mp h with rfl | h
          · exact ⟨[], sep ++ sep.intercalate (next :: rest), by simp⟩
          · exact (ih h).trans (List.suffix_append _ _).isInfix

namespace Enclosure

def join (e : Enclosure) (parts : List (List Char)) : List Char :=
  [e.delimiter].intercalate parts

/-- The depth after a text in which nothing is cut. -/
def depthOver (e : Enclosure) (depth : Int) (text : List Char) : Int :=
  text.foldl e.depthAfter depth

/-- No character of the text is a cut when the scan enters it at the given depth. -/
def Uncut (e : Enclosure) : Int → List Char → Prop
  | _, [] => True
  | depth, c :: rest => ¬ (c = e.delimiter ∧ depth = 0) ∧ e.Uncut (e.depthAfter depth c) rest

instance decidableUncut (e : Enclosure) : (depth : Int) → (text : List Char) →
    Decidable (e.Uncut depth text)
  | _, [] => .isTrue trivial
  | depth, c :: rest =>
    have := decidableUncut e (e.depthAfter depth c) rest
    inferInstanceAs (Decidable (_ ∧ _))

/-- The parts of a joined text are exactly its pieces. -/
structure Divides (e : Enclosure) (parts : List (List Char)) : Prop where
  uncut : ∀ part ∈ parts, e.Uncut 0 part
  level : ∀ part ∈ parts.dropLast, e.depthOver 0 part = 0

/-- The characters that the scan looks for. -/
def signs (e : Enclosure) : List Char :=
  [e.delimiter, e.opening, e.closing]

variable {e : Enclosure}

theorem mem_signs {c} : c ∈ e.signs ↔ c = e.delimiter ∨ c = e.opening ∨ c = e.closing := by
  simp [signs]

theorem depthAfter_of_not_sign {c} (h : c ∉ e.signs) (depth : Int) : e.depthAfter depth c = depth := by
  simp only [mem_signs, not_or] at h
  rw [depthAfter, if_neg h.2.1, if_neg h.2.2]

theorem ne_delimiter_of_not_sign {c} (h : c ∉ e.signs) : c ≠ e.delimiter := by
  intro same
  exact h (mem_signs.mpr (.inl same))

theorem depthOver_append (depth : Int) (s t : List Char) :
    e.depthOver depth (s ++ t) = e.depthOver (e.depthOver depth s) t :=
  List.foldl_append

theorem uncut_append {depth s t} :
    e.Uncut depth (s ++ t) ↔ e.Uncut depth s ∧ e.Uncut (e.depthOver depth s) t := by
  induction s generalizing depth with
  | nil => simp [Uncut, depthOver]
  | cons c s ih => simp only [List.cons_append, Uncut, ih, depthOver, List.foldl_cons, and_assoc]

/-! ## Characters that are no signs -/

theorem uncut_of_no_sign {text} (h : ∀ c ∈ text, c ∉ e.signs) (depth : Int) :
    e.Uncut depth text ∧ e.depthOver depth text = depth := by
  induction text with
  | nil => exact ⟨trivial, rfl⟩
  | cons c rest ih =>
      have plain := h c List.mem_cons_self
      have := ih fun d member => h d (List.mem_cons_of_mem _ member)
      simp only [Uncut, depthOver, List.foldl_cons, depthAfter_of_not_sign plain,
        ne_delimiter_of_not_sign plain, false_and, not_false_eq_true, true_and]
      exact this

theorem depthOver_filter {keep : Char → Bool} (kept : ∀ c ∈ e.signs, keep c = true)
    (depth : Int) (text : List Char) :
    e.depthOver depth (text.filter keep) = e.depthOver depth text := by
  induction text generalizing depth with
  | nil => rfl
  | cons c rest ih =>
      rw [List.filter_cons]
      split
      · exact ih _
      · rename_i dropped
        have plain : c ∉ e.signs := fun sign => dropped (kept c sign)
        rw [ih, depthOver, depthOver, List.foldl_cons, depthAfter_of_not_sign plain]

theorem uncut_filter {keep : Char → Bool} (kept : ∀ c ∈ e.signs, keep c = true) {depth text} :
    e.Uncut depth (text.filter keep) ↔ e.Uncut depth text := by
  induction text generalizing depth with
  | nil => rfl
  | cons c rest ih =>
      rw [List.filter_cons]
      split
      · simp only [Uncut, ih]
      · rename_i dropped
        have plain : c ∉ e.signs := fun sign => dropped (kept c sign)
        simp only [ih, Uncut, depthAfter_of_not_sign plain, ne_delimiter_of_not_sign plain,
          false_and, not_false_eq_true, true_and]

/-- Division looks at nothing but the signs. -/
theorem divides_map_filter {keep : Char → Bool} (kept : ∀ c ∈ e.signs, keep c = true) {parts} :
    e.Divides (parts.map (List.filter keep)) ↔ e.Divides parts := by
  constructor
  · intro given
    obtain ⟨uncut, level⟩ := given
    refine ⟨fun part member => ?_, fun part member => ?_⟩
    · exact (uncut_filter kept).mp (uncut _ (List.mem_map_of_mem member))
    · rw [← List.map_dropLast] at level
      rw [← depthOver_filter kept]
      exact level _ (List.mem_map_of_mem member)
  · intro given
    obtain ⟨uncut, level⟩ := given
    refine ⟨fun part member => ?_, fun part member => ?_⟩
    · obtain ⟨whole, inParts, rfl⟩ := List.mem_map.mp member
      exact (uncut_filter kept).mpr (uncut whole inParts)
    · rw [← List.map_dropLast] at member
      obtain ⟨whole, inParts, rfl⟩ := List.mem_map.mp member
      rw [depthOver_filter kept]
      exact level whole inParts

/-! ## Pieces of joined parts -/

theorem divides_cons_cons {part next rest} : e.Divides (part :: next :: rest) ↔
    e.Uncut 0 part ∧ e.depthOver 0 part = 0 ∧ e.Divides (next :: rest) := by
  constructor
  · intro given
    obtain ⟨uncut, level⟩ := given
    refine ⟨uncut part List.mem_cons_self, level part List.mem_cons_self, ?_, ?_⟩
    · exact fun other member => uncut other (List.mem_cons_of_mem _ member)
    · exact fun other member => level other (List.mem_cons_of_mem _ member)
  · intro given
    obtain ⟨uncut, level, others⟩ := given
    constructor
    · intro other member
      rcases List.mem_cons.mp member with rfl | member
      · exact uncut
      · exact others.uncut other member
    · intro other member
      rw [List.dropLast_cons_cons] at member
      rcases List.mem_cons.mp member with rfl | member
      · exact level
      · exact others.level other member

theorem divides_singleton {part} : e.Divides [part] ↔ e.Uncut 0 part := by
  constructor
  · intro given
    obtain ⟨uncut, -⟩ := given
    exact uncut part List.mem_cons_self
  · intro uncut
    refine ⟨fun other member => ?_, fun other member => absurd member List.not_mem_nil⟩
    rwa [List.mem_singleton.mp member]

theorem pieces_append {depth s} (uncut : e.Uncut depth s) (rest : List Char) :
    e.pieces depth (s ++ rest) = (e.pieces (e.depthOver depth s) rest).modifyHead (s ++ ·) := by
  induction s generalizing depth with
  | nil =>
      simp only [List.nil_append, depthOver, List.foldl_nil]
      cases e.pieces depth rest <;> rfl
  | cons c s ih =>
      obtain ⟨noCut, uncut⟩ := uncut
      rw [List.cons_append, pieces, if_neg noCut, ih uncut, List.modifyHead_modifyHead]
      rfl

theorem pieces_of_uncut {depth text} (uncut : e.Uncut depth text) :
    e.pieces depth text = [text] := by
  have := pieces_append uncut []
  rwa [List.append_nil, pieces, List.modifyHead_cons, List.append_nil] at this

theorem join_cons_cons (part next : List Char) (rest : List (List Char)) :
    e.join (part :: next :: rest) = part ++ e.delimiter :: e.join (next :: rest) := by
  simp [join]

theorem pieces_join {parts} (nonempty : parts ≠ []) (divides : e.Divides parts) :
    e.pieces 0 (e.join parts) = parts := by
  induction parts with
  | nil => exact absurd rfl nonempty
  | cons part parts ih =>
      cases parts with
      | nil =>
          rw [join, List.intercalate_singleton]
          exact pieces_of_uncut (divides_singleton.mp divides)
      | cons next rest =>
          obtain ⟨uncut, level, others⟩ := divides_cons_cons.mp divides
          rw [join_cons_cons, pieces_append uncut, level, pieces, if_pos ⟨rfl, rfl⟩,
            ih (List.cons_ne_nil _ _) others, List.modifyHead_cons, List.append_nil]

theorem join_modifyHead_cons (c : Char) {parts : List (List Char)} (nonempty : parts ≠ []) :
    e.join (parts.modifyHead (c :: ·)) = c :: e.join parts := by
  obtain ⟨part, rest, rfl⟩ := List.exists_cons_of_ne_nil nonempty
  rw [List.modifyHead_cons, join, join, List.intercalate_cons_cons_left]

theorem join_pieces (depth : Int) (text : List Char) : e.join (e.pieces depth text) = text := by
  induction text generalizing depth with
  | nil => rfl
  | cons c rest ih =>
      rw [pieces]
      split
      · rename_i cut
        obtain ⟨next, others, found⟩ := List.exists_cons_of_ne_nil (e.pieces_ne_nil depth rest)
        rw [found, join_cons_cons, ← found, ih, ← cut.1, List.nil_append]
      · rw [join_modifyHead_cons c (e.pieces_ne_nil _ rest), ih]

/-- What the scan has met by its first cut, and what is left to it. -/
theorem pieces_eq (depth : Int) (text : List Char) : ∃ part rest,
    e.pieces depth text = part :: rest ∧ e.Uncut depth part ∧
      (rest ≠ [] → e.depthOver depth part = 0) ∧ e.Divides rest := by
  induction text generalizing depth with
  | nil =>
      refine ⟨[], [], rfl, trivial, fun nonempty => absurd rfl nonempty, ?_, ?_⟩
      · exact fun part member => absurd member List.not_mem_nil
      · exact fun part member => absurd member List.not_mem_nil
  | cons c text ih =>
      rw [pieces]
      split
      · rename_i cut
        obtain ⟨part, rest, found, uncut, level, divides⟩ := ih depth
        refine ⟨[], _, rfl, trivial, fun _ => cut.2, ?_⟩
        rw [cut.2] at found uncut level
        rw [cut.2, found]
        cases rest with
        | nil => exact divides_singleton.mpr uncut
        | cons next rest => exact divides_cons_cons.mpr ⟨uncut, level (List.cons_ne_nil _ _), divides⟩
      · rename_i noCut
        obtain ⟨part, rest, found, uncut, level, divides⟩ := ih (e.depthAfter depth c)
        refine ⟨c :: part, rest, ?_, ⟨noCut, uncut⟩, level, divides⟩
        rw [found, List.modifyHead_cons]

theorem divides_pieces (text : List Char) : e.Divides (e.pieces 0 text) := by
  obtain ⟨part, rest, found, uncut, level, divides⟩ := e.pieces_eq 0 text
  rw [found]
  cases rest with
  | nil => exact divides_singleton.mpr uncut
  | cons next rest => exact divides_cons_cons.mpr ⟨uncut, level (List.cons_ne_nil _ _), divides⟩

/-! ## Fields -/

/-- None of the signs is blank, so trimming never takes one away. -/
def Solid (e : Enclosure) : Prop :=
  ∀ c ∈ e.signs, Text.isBlank c = false

theorem Solid.not_sign (solid : e.Solid) {c} (blank : Text.isBlank c = true) : c ∉ e.signs := by
  intro sign
  rw [solid c sign] at blank
  cases blank

theorem Solid.uncut_blank (solid : e.Solid) {blank} (h : Text.Blank blank) (depth : Int) :
    e.Uncut depth blank ∧ e.depthOver depth blank = depth :=
  uncut_of_no_sign (fun c member => solid.not_sign (h c member)) depth

theorem map_trim_pieces_surrounded (solid : e.Solid) {before after parts} (hb : Text.Blank before)
    (ha : Text.Blank after) (nonempty : parts ≠ []) (divides : e.Divides parts) :
    (e.pieces 0 (before ++ e.join parts ++ after)).map Text.trim = parts.map Text.trim := by
  obtain ⟨uncutBefore, levelBefore⟩ := solid.uncut_blank hb 0
  induction parts generalizing before with
  | nil => exact absurd rfl nonempty
  | cons part parts ih =>
      cases parts with
      | nil =>
          have uncut := divides_singleton.mp divides
          have uncutAll : e.Uncut 0 (before ++ part ++ after) := by
            rw [uncut_append, uncut_append, levelBefore]
            exact ⟨⟨uncutBefore, uncut⟩, (solid.uncut_blank ha _).1⟩
          rw [join, List.intercalate_singleton, pieces_of_uncut uncutAll, List.map_singleton,
            Text.trim_surrounded hb ha, List.map_singleton]
      | cons next rest =>
          obtain ⟨uncut, level, others⟩ := divides_cons_cons.mp divides
          have uncutFirst : e.Uncut 0 (before ++ part) := by
            rw [uncut_append, levelBefore]
            exact ⟨uncutBefore, uncut⟩
          have levelFirst : e.depthOver 0 (before ++ part) = 0 := by
            rw [depthOver_append, levelBefore, level]
          have tail := ih Text.blank_nil (List.cons_ne_nil _ _) others trivial rfl
          rw [List.nil_append] at tail
          rw [join_cons_cons, ← List.append_assoc, List.append_assoc, pieces_append uncutFirst,
            levelFirst, List.cons_append, pieces, if_pos ⟨rfl, rfl⟩, List.modifyHead_cons,
            List.append_nil, List.map_cons, tail, Text.trim_blank_append hb]
          rfl

theorem map_trim_pieces_trim (solid : e.Solid) (text : List Char) :
    (e.pieces 0 (Text.trim text)).map Text.trim = (e.pieces 0 text).map Text.trim := by
  obtain ⟨before, after, hb, ha, split⟩ := Text.exists_surrounded_trim text
  have := map_trim_pieces_surrounded solid hb ha (e.pieces_ne_nil 0 (Text.trim text))
    (e.divides_pieces _)
  rw [join_pieces, ← split] at this
  exact this.symm

/-- A blank text has no fields; the fields of any other are its trimmed pieces, none of them blank. -/
theorem fields?_eq_some_iff (solid : e.Solid) {text fields} : e.fields? text = some fields ↔
    (Text.Blank text ∧ fields = []) ∨
      (¬ Text.Blank text ∧ (∀ part ∈ e.pieces 0 text, ¬ Text.Blank part) ∧
        fields = (e.pieces 0 text).map Text.trim) := by
  have solidPieces : ((e.pieces 0 text).map Text.trim).any List.isEmpty = false ↔
      ∀ part ∈ e.pieces 0 text, ¬ Text.Blank part := by
    simp only [List.any_map, List.any_eq_false, Function.comp_apply, List.isEmpty_iff,
      Text.trim_eq_nil_iff]
  have empty : (Text.trim text).isEmpty = true ↔ Text.Blank text := by
    rw [List.isEmpty_iff, Text.trim_eq_nil_iff]
  simp only [fields?, map_trim_pieces_trim solid]
  by_cases blank : Text.Blank text
  · rw [if_pos (empty.mpr blank)]
    simp only [blank, Option.some.injEq, true_and, not_true_eq_false, false_and, or_false]
    exact eq_comm
  · rw [if_neg (mt empty.mp blank), ← solidPieces]
    cases ((e.pieces 0 text).map Text.trim).any List.isEmpty with
    | true => simp [blank]
    | false =>
        simp only [blank, Bool.false_eq_true, if_false, Option.some.injEq, false_and, false_or,
          not_false_eq_true, true_and]
        exact eq_comm

theorem fields?_join (solid : e.Solid) {parts} (nonempty : parts ≠ []) (divides : e.Divides parts)
    (visible : ∀ part ∈ parts, ¬ Text.Blank part) :
    e.fields? (e.join parts) = some (parts.map Text.trim) := by
  refine (fields?_eq_some_iff solid).mpr (.inr ⟨?_, ?_, ?_⟩)
  · obtain ⟨part, rest, rfl⟩ := List.exists_cons_of_ne_nil nonempty
    intro blank
    refine visible part List.mem_cons_self (fun c member => blank c ?_)
    cases rest with
    | nil => rwa [join, List.intercalate_singleton]
    | cons next rest =>
        rw [join_cons_cons]
        exact List.mem_append_left _ member
  · rwa [pieces_join nonempty divides]
  · rw [pieces_join nonempty divides]

/-! ## Filtering joined parts -/

theorem filter_join {keep : Char → Bool} (kept : keep e.delimiter = true)
    (parts : List (List Char)) :
    (e.join parts).filter keep = e.join (parts.map (List.filter keep)) := by
  induction parts with
  | nil => rfl
  | cons part parts ih =>
      cases parts with
      | nil => simp [join]
      | cons next rest =>
          rw [join_cons_cons, List.filter_append, List.filter_cons_of_pos kept, ih]
          simp only [List.map_cons, join_cons_cons]

/-! ## Balanced texts -/

/-- The scan meets no cut in the text and ends where it started, at every depth that is not
negative. -/
def Balanced (e : Enclosure) (text : List Char) : Prop :=
  ∀ depth : Int, 0 ≤ depth → e.Uncut depth text ∧ e.depthOver depth text = depth

/-- The signs of an enclosure are told apart by the scan. -/
structure Distinct (e : Enclosure) : Prop where
  opening : e.opening ≠ e.delimiter
  closing : e.closing ≠ e.delimiter
  brackets : e.opening ≠ e.closing

/-- A delimiter leaves the depth as it is, whether it is a cut or not. -/
theorem Distinct.depthAfter_delimiter (distinct : e.Distinct) (depth : Int) :
    e.depthAfter depth e.delimiter = depth := by
  rw [depthAfter, if_neg distinct.opening.symm, if_neg distinct.closing.symm]

theorem balanced_nil : e.Balanced [] :=
  fun _ _ => ⟨trivial, rfl⟩

theorem balanced_append {s t} (hs : e.Balanced s) (ht : e.Balanced t) : e.Balanced (s ++ t) := by
  intro depth h
  obtain ⟨uncut, level⟩ := hs depth h
  rw [uncut_append, depthOver_append, level]
  exact ⟨⟨uncut, (ht depth h).1⟩, (ht depth h).2⟩

theorem balanced_of_no_sign {text} (h : ∀ c ∈ text, c ∉ e.signs) : e.Balanced text := by
  intro depth _
  exact uncut_of_no_sign h depth

theorem balanced_join_foreign {e' : Enclosure} (foreign : e'.delimiter ∉ e.signs)
    {parts : List (List Char)} (each : ∀ part ∈ parts, e.Balanced part) :
    e.Balanced (e'.join parts) := by
  induction parts with
  | nil => exact balanced_nil
  | cons part parts ih =>
      have first := each part List.mem_cons_self
      cases parts with
      | nil => rwa [join, List.intercalate_singleton]
      | cons next rest =>
          have others := ih fun other member => each other (List.mem_cons_of_mem _ member)
          have sign : e.Balanced [e'.delimiter] :=
            balanced_of_no_sign fun c member => by rwa [List.mem_singleton.mp member]
          rw [join_cons_cons]
          exact balanced_append first (balanced_append sign others)

theorem join_below {parts : List (List Char)} (distinct : e.Distinct)
    (each : ∀ part ∈ parts, e.Balanced part) (depth : Int) (below : 0 < depth) :
    e.Uncut depth (e.join parts) ∧ e.depthOver depth (e.join parts) = depth := by
  induction parts with
  | nil => exact ⟨trivial, rfl⟩
  | cons part parts ih =>
      obtain ⟨uncut, level⟩ := each part List.mem_cons_self depth (Int.le_of_lt below)
      cases parts with
      | nil =>
          rw [join, List.intercalate_singleton]
          exact ⟨uncut, level⟩
      | cons next rest =>
          have others := ih fun other member => each other (List.mem_cons_of_mem _ member)
          rw [join_cons_cons, uncut_append, depthOver_append, level, Uncut, depthOver,
            List.foldl_cons, distinct.depthAfter_delimiter]
          exact ⟨⟨uncut, fun cut => by omega, others.1⟩, others.2⟩

theorem balanced_enclosed {parts : List (List Char)} (distinct : e.Distinct)
    (each : ∀ part ∈ parts, e.Balanced part) :
    e.Balanced (e.opening :: e.join parts ++ [e.closing]) := by
  intro depth h
  have opened : e.depthAfter depth e.opening = depth + 1 := by
    rw [depthAfter, if_pos rfl]
  have closed : e.depthAfter (depth + 1) e.closing = depth := by
    rw [depthAfter, if_neg distinct.brackets.symm, if_pos rfl]
    omega
  obtain ⟨uncut, level⟩ := join_below distinct each (depth + 1) (by omega)
  rw [List.cons_append, Uncut, uncut_append, opened, level]
  refine ⟨⟨?_, uncut, ?_, trivial⟩, ?_⟩
  · exact fun cut => distinct.opening cut.1
  · exact fun cut => distinct.closing cut.1
  · rw [depthOver, List.foldl_cons, opened]
    change e.depthOver (depth + 1) (e.join parts ++ [e.closing]) = depth
    rw [depthOver_append, level]
    exact closed

theorem divides_of_balanced {parts : List (List Char)} (each : ∀ part ∈ parts, e.Balanced part) :
    e.Divides parts := by
  constructor
  · exact fun part member => (each part member 0 (Int.le_refl 0)).1
  · exact fun part member => (each part (List.dropLast_subset _ member) 0 (Int.le_refl 0)).2

end Enclosure

end Destructure
