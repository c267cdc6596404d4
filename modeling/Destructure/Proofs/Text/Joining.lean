import Destructure.Proofs.Text.Division
import Mathlib.Data.List.Forall2

/-! # Splitting undoes joining

Fragments that are joined with the delimiter, whatever blanks stand around them, are the fields of
the joined text.  What it takes is told by counting brackets: a delimiter inside a fragment is hidden
if it comes after different numbers of opening and closing brackets, no matter which of the two are
more, and a fragment leaves the depth at zero if it has as many of the one as of the other.  The last
fragment may leave it anywhere.
-/

namespace Destructure.Enclosure

variable {e : Enclosure}

/-! ## The depth in numbers of brackets -/

theorem depthOver_eq_count (brackets : e.opening ≠ e.closing) (depth : Int) (text : List Char) :
    e.depthOver depth text = depth + text.count e.opening - text.count e.closing := by
  induction text generalizing depth with
  | nil => simp [depthOver]
  | cons c text ih =>
      have step : e.depthOver depth (c :: text) = e.depthOver (e.depthAfter depth c) text := rfl
      rw [step, ih]
      by_cases opens : c = e.opening
      · subst opens
        simp [depthAfter, brackets]
        omega
      · by_cases closes : c = e.closing
        · subst closes
          simp [depthAfter, opens]
          omega
        · simp [depthAfter, opens, closes]

/-- A scan that meets no cut is above or below zero at every delimiter. -/
theorem uncut_iff_depth {depth : Int} {text : List Char} : e.Uncut depth text ↔
    ∀ front rest, text = front ++ e.delimiter :: rest → e.depthOver depth front ≠ 0 := by
  induction text generalizing depth with
  | nil => simp [Uncut]
  | cons c text ih =>
      rw [Uncut, ih]
      constructor
      · intro given front rest split level
        obtain ⟨here, later⟩ := given
        cases front with
        | nil =>
            obtain ⟨rfl, -⟩ := List.cons.inj split
            exact here ⟨rfl, level⟩
        | cons d front =>
            obtain ⟨rfl, others⟩ := List.cons.inj split
            exact later front rest others level
      · intro given
        constructor
        · intro cut
          obtain ⟨rfl, zero⟩ := cut
          exact given [] text rfl zero
        · intro front rest split
          exact given (c :: front) rest (by rw [split, List.cons_append])

theorem uncut_iff_count (brackets : e.opening ≠ e.closing) {text : List Char} :
    e.Uncut 0 text ↔ ∀ front rest, text = front ++ e.delimiter :: rest →
      front.count e.opening ≠ front.count e.closing := by
  have uneven : ∀ front : List Char, e.depthOver 0 front ≠ 0 ↔
      front.count e.opening ≠ front.count e.closing := by
    intro front
    rw [depthOver_eq_count brackets]
    omega
  simp only [uncut_iff_depth, uneven]

/-! ## Fragments -/

/-- A text that can be a field: it has no blank at its ends, and brackets that do not even out come
before each delimiter in it. -/
structure Fragment (e : Enclosure) (text : List Char) : Prop where
  nonempty : text ≠ []
  start : ∀ c ∈ text.head?, Text.isBlank c = false
  stop : ∀ c ∈ text.getLast?, Text.isBlank c = false
  hidden : ∀ front rest, text = front ++ e.delimiter :: rest →
    front.count e.opening ≠ front.count e.closing

namespace Fragment

theorem visible {text : List Char} (fragment : e.Fragment text) : ¬ Text.Blank text := by
  obtain ⟨c, rest, rfl⟩ := List.exists_cons_of_ne_nil fragment.nonempty
  intro blank
  have solid := fragment.start c rfl
  simp [blank c List.mem_cons_self] at solid

theorem trim_eq {text : List Char} (fragment : e.Fragment text) : Text.trim text = text := by
  obtain ⟨c, rest, rfl⟩ := List.exists_cons_of_ne_nil fragment.nonempty
  have solid := fragment.start c rfl
  obtain ⟨front, last, whole⟩ := List.eq_nil_or_concat' (c :: rest) |>.resolve_left (by simp)
  have solidLast := fragment.stop last (by simp [whole])
  rw [Text.trim, Text.trimStart_cons solid, whole, Text.trimEnd_concat solidLast]

end Fragment

def Padded (text fragment : List Char) : Prop :=
  ∃ before after, Text.Blank before ∧ Text.Blank after ∧ text = before ++ fragment ++ after

theorem Padded.trim_eq {text fragment : List Char} (padded : Padded text fragment) :
    Text.trim text = Text.trim fragment := by
  obtain ⟨before, after, hb, ha, rfl⟩ := padded
  exact Text.trim_surrounded hb ha fragment

theorem Padded.visible {text fragment : List Char} (padded : Padded text fragment)
    (visible : ¬ Text.Blank fragment) : ¬ Text.Blank text := by
  rwa [← Text.trim_eq_nil_iff, padded.trim_eq, Text.trim_eq_nil_iff]

theorem Padded.scan (solid : e.Solid) {text fragment : List Char} (padded : Padded text fragment)
    (depth : Int) : (e.Uncut depth text ↔ e.Uncut depth fragment) ∧
      e.depthOver depth text = e.depthOver depth fragment := by
  obtain ⟨before, after, hb, ha, rfl⟩ := padded
  obtain ⟨uncutBefore, levelBefore⟩ := solid.uncut_blank hb depth
  obtain ⟨uncutAfter, levelAfter⟩ := solid.uncut_blank ha (e.depthOver depth fragment)
  simp only [uncut_append, depthOver_append, levelBefore, uncutBefore, uncutAfter, levelAfter,
    true_and, and_true]

/-- Blanks around the parts do not matter to how they are divided. -/
theorem divides_of_padded (solid : e.Solid) {texts fragments : List (List Char)}
    (padded : List.Forall₂ Padded texts fragments) (divides : e.Divides fragments) :
    e.Divides texts := by
  induction padded with
  | nil => exact divides
  | @cons text fragment texts fragments first others ih =>
      obtain ⟨uncut, level⟩ := first.scan solid 0
      cases others with
      | nil => exact divides_singleton.mpr (uncut.mpr (divides_singleton.mp divides))
      | cons second rest =>
          obtain ⟨uncutFragment, levelFragment, dividesRest⟩ := divides_cons_cons.mp divides
          exact divides_cons_cons.mpr
            ⟨uncut.mpr uncutFragment, level.trans levelFragment, ih dividesRest⟩

theorem map_trim_of_padded {texts fragments : List (List Char)}
    (padded : List.Forall₂ Padded texts fragments)
    (trimmed : ∀ fragment ∈ fragments, Text.trim fragment = fragment) :
    texts.map Text.trim = fragments := by
  induction padded with
  | nil => rfl
  | cons first others ih =>
      obtain ⟨trimmedFirst, trimmedOthers⟩ := List.forall_mem_cons.mp trimmed
      rw [List.map_cons, first.trim_eq, trimmedFirst, ih trimmedOthers]

theorem visible_of_padded {texts fragments : List (List Char)}
    (padded : List.Forall₂ Padded texts fragments)
    (visible : ∀ fragment ∈ fragments, ¬ Text.Blank fragment) :
    ∀ text ∈ texts, ¬ Text.Blank text := by
  induction padded with
  | nil => exact fun text member => absurd member List.not_mem_nil
  | cons first others ih =>
      obtain ⟨visibleFirst, visibleOthers⟩ := List.forall_mem_cons.mp visible
      exact List.forall_mem_cons.mpr ⟨first.visible visibleFirst, ih visibleOthers⟩

/-- The fields of joined fragments are the fragments, whatever blanks were put around them. -/
theorem fields_joined (e : Enclosure) (solid : e.Solid) (brackets : e.opening ≠ e.closing)
    (fragments texts : List String) (nonempty : fragments ≠ [])
    (each : ∀ fragment ∈ fragments, e.Fragment fragment.toList)
    (level : ∀ fragment ∈ fragments.dropLast,
      fragment.toList.count e.opening = fragment.toList.count e.closing)
    (padded : List.Forall₂ (fun text fragment => Padded text.toList fragment.toList)
      texts fragments) :
    e.fields ((String.singleton e.delimiter).intercalate texts) = .ok fragments := by
  have paddedLists : List.Forall₂ Padded (texts.map String.toList)
      (fragments.map String.toList) := by
    simpa [List.forall₂_map_left_iff, List.forall₂_map_right_iff] using padded
  have eachList : ∀ text ∈ fragments.map String.toList, e.Fragment text := by
    simpa using each
  have divides : e.Divides (fragments.map String.toList) := by
    constructor
    · exact fun text member => (uncut_iff_count brackets).mpr (eachList text member).hidden
    · intro text member
      rw [← List.map_dropLast] at member
      obtain ⟨fragment, inFragments, rfl⟩ := List.mem_map.mp member
      have even := level fragment inFragments
      rw [depthOver_eq_count brackets]
      omega
  have some : texts.map String.toList ≠ [] := by
    intro none
    rw [none, List.forall₂_nil_left_iff] at paddedLists
    exact nonempty (List.map_eq_nil_iff.mp paddedLists)
  have found := fields?_join solid some (divides_of_padded solid paddedLists divides)
    (visible_of_padded paddedLists fun text member => (eachList text member).visible)
  have joined : ((String.singleton e.delimiter).intercalate texts).toList =
      e.join (texts.map String.toList) := by
    simp [String.toList_intercalate, join]
  rw [map_trim_of_padded paddedLists fun text member => (eachList text member).trim_eq] at found
  rw [fields, joined, found]
  simp

/-- A comma is hidden above zero in the first fragment and below zero in the second, and the last
fragment ends above zero. -/
theorem fields_joined_hidden_commas :
    (∀ fragment ∈ ["[a,b]", "],[", "x["], Enclosure.Fragment ⟨',', '[', ']'⟩ fragment.toList) ∧
      Enclosure.fields ⟨',', '[', ']'⟩
        ((String.singleton ',').intercalate [" [a,b]\t", "],[", "\u2003x["]) =
          .ok ["[a,b]", "],[", "x["] := by
  have solid : Solid ⟨',', '[', ']'⟩ := by
    simp [Solid, signs, Text.isBlank]
  have brackets : '[' ≠ ']' := by decide
  have fragment : ∀ text ∈ ["[a,b]", "],[", "x["],
      Enclosure.Fragment ⟨',', '[', ']'⟩ text.toList := by
    have uncut : ∀ text ∈ ["[a,b]", "],[", "x["], Enclosure.Uncut ⟨',', '[', ']'⟩ 0 text.toList := by
      decide
    intro text member
    have hidden := (uncut_iff_count brackets).mp (uncut text member)
    simp only [List.mem_cons, List.not_mem_nil, or_false] at member
    rcases member with rfl | rfl | rfl
    all_goals exact ⟨by simp, by simp [Text.isBlank], by simp [Text.isBlank], hidden⟩
  refine ⟨fragment, fields_joined _ solid brackets _ _ (by decide) fragment (by decide) ?_⟩
  have blank : Text.Blank [] ∧ Text.Blank [' '] ∧ Text.Blank ['\t'] ∧ Text.Blank ['\u2003'] := by
    simp [Text.Blank, Text.isBlank]
  obtain ⟨none, space, tab, wide⟩ := blank
  exact .cons ⟨[' '], ['\t'], space, tab, rfl⟩ (.cons ⟨[], [], none, none, rfl⟩
    (.cons ⟨['\u2003'], [], wide, none, rfl⟩ .nil))

end Destructure.Enclosure
