import Destructure.Pattern.Shape
import Destructure.Proofs.Pattern.Atom
import Destructure.Proofs.Text.Division
import Mathlib.Data.List.Forall2

/-! # The grammar of patterns

`Written parted text p` derives `text` with the syntax tree `p`.  Blank characters may surround every
pattern, but nothing may stand between a name and its `@`.  The parameter restricts how the parts of
a group may be put together: `Derives` is the documented grammar, which does not restrict it, and
`Legible` admits only groups that cutting at the delimiters takes apart again.
-/

namespace Destructure.Pattern

/-! ## Patterns without parts -/

/-- The text is the word with any of its letters as capitals. -/
def InAnyCase (word text : List Char) : Prop :=
  List.Forall₂ (fun c letter => c = letter ∨ c = letter.toUpper) text word

def truthWord : Bool → List Char
  | true => ['t', 'r', 'u', 'e']
  | false => ['f', 'a', 'l', 's', 'e']

/-- A word of ASCII letters, one at least, that is no truth value. -/
structure Identifier (text : List Char) : Prop where
  nonempty : text ≠ []
  letters : ∀ c ∈ text, c.isAlpha = true
  free : ∀ value, ¬ InAnyCase (truthWord value) text

/-- A text and the pattern without parts that it stands for. -/
inductive Atomic : List Char → Pattern → Prop where
  | number {n : Numeral} (proper : n.Proper) : Atomic n.text (.number (.ofNumeral n))
  | bool {text value} (h : InAnyCase (truthWord value) text) : Atomic text (.bool value)
  | ident {name} (h : Identifier name) : Atomic name (.ident (String.ofList name))
  /-- A string holds anything but its own quote and a line end. -/
  | str {quote content} (kind : IsQuote quote) (plain : ∀ c ∈ content, c ≠ quote ∧ c ≠ '\n') :
      Atomic (quote :: content ++ [quote]) (.str (String.ofList content))
  | wildcard : Atomic ['_'] .wildcard

theorem inAnyCase_iff {word text : List Char} (small : ∀ letter ∈ word, letter.isLower = true) :
    InAnyCase word text ↔ text.map Char.toLower = word := by
  rw [InAnyCase]
  induction word generalizing text with
  | nil => rw [List.forall₂_nil_right_iff, List.map_eq_nil_iff]
  | cons letter word ih =>
      obtain ⟨first, others⟩ := List.forall_mem_cons.mp small
      cases text with
      | nil => simp [List.forall₂_nil_left_iff]
      | cons c text => simp [Text.toLower_eq_iff first, ih others]

theorem small_truthWord (value : Bool) : ∀ letter ∈ truthWord value, letter.isLower = true := by
  apply List.all_eq_true.mp
  cases value <;> rfl

theorem inAnyCase_truthWord_iff {text : List Char} {value : Bool} :
    InAnyCase (truthWord value) text ↔ truthValue? text = some value := by
  rw [inAnyCase_iff (small_truthWord value), truthValue?]
  split
  · cases value <;> simp [truthWord, *]
  · split
    · cases value <;> simp [truthWord, *]
    · cases value <;> simp [truthWord, *]

theorem InAnyCase.isWord {text : List Char} {value : Bool} (h : InAnyCase (truthWord value) text) :
    isWord text = true := by
  have spelled := (inAnyCase_iff (small_truthWord value)).mp h
  apply isWord_iff.mpr
  constructor
  · rintro rfl
    cases value <;> cases spelled
  · intro c member
    have small : c.toLower.isLower = true := by
      apply small_truthWord value
      rw [← spelled]
      exact List.mem_map_of_mem member
    rw [← Text.isAlpha_toLower]
    exact Text.isAlpha_of_isLower small

namespace Identifier

theorem isWord {text : List Char} (h : Identifier text) : isWord text = true :=
  isWord_iff.mpr ⟨h.nonempty, h.letters⟩

theorem truthValue?_eq_none {text : List Char} (h : Identifier text) : truthValue? text = none :=
  Option.eq_none_iff_forall_ne_some.mpr fun value =>
    mt inAnyCase_truthWord_iff.mpr (h.free value)

end Identifier

theorem identifier_iff {text : List Char} : Identifier text ↔ isName text = true := by
  rw [isName, Bool.and_eq_true]
  constructor
  · intro h
    exact ⟨h.isWord, Option.isNone_iff_eq_none.mpr h.truthValue?_eq_none⟩
  · rintro ⟨word, none⟩
    obtain ⟨nonempty, letters⟩ := isWord_iff.mp word
    refine ⟨nonempty, letters, fun value spelled => ?_⟩
    rw [inAnyCase_truthWord_iff.mp spelled] at none
    cases none

/-- The atoms with their patterns are what the clauses of the grammar say. -/
theorem atomic_iff {text : List Char} {p : Pattern} :
    Atomic text p ↔ ∃ a, Atom.Spells text a ∧ a.toPattern = p := by
  constructor
  · intro h
    cases h with
    | number proper => exact ⟨_, .number proper, rfl⟩
    | bool h =>
        refine ⟨_, .word h.isWord, ?_⟩
        rw [Atom.toPattern, inAnyCase_truthWord_iff.mp h]
    | ident h =>
        refine ⟨_, .word h.isWord, ?_⟩
        rw [Atom.toPattern, h.truthValue?_eq_none]
    | str kind plain => exact ⟨_, .str kind plain, rfl⟩
    | wildcard => exact ⟨_, .wildcard, rfl⟩
  · rintro ⟨a, spells, rfl⟩
    cases spells with
    | number proper => exact .number proper
    | word letters =>
        rw [Atom.toPattern]
        cases found : truthValue? text with
        | some value => exact .bool (inAnyCase_truthWord_iff.mpr found)
        | none =>
            apply Atomic.ident
            rw [identifier_iff, isName, letters, found]
            rfl
    | str kind plain => exact .str kind plain
    | wildcard => exact .wildcard

/-! ## All patterns -/

mutual
/-- A pattern in a text that may start and end with blanks. -/
inductive Written (parted : Enclosure → List (List Char) → Prop) : List Char → Pattern → Prop where
  | surrounded {before body after p} (blank_before : Text.Blank before)
      (blank_after : Text.Blank after) (bare : Bare parted body p) :
      Written parted (before ++ body ++ after) p

/-- A pattern with no blank before it. -/
inductive Bare (parted : Enclosure → List (List Char) → Prop) : List Char → Pattern → Prop where
  | atom {text p} (h : Atomic text p) : Bare parted text p
  | emptyArray {blank} (h : Text.Blank blank) : Bare parted ('[' :: blank ++ [']']) (.array [])
  | array {parts items} (nonempty : parts ≠ []) (h : parted .array parts)
      (each : WrittenEach parted parts items) :
      Bare parted ('[' :: [','].intercalate parts ++ [']']) (.array items)
  /-- The last part is the tail. -/
  | cons {parts heads last tail} (nonempty : parts ≠ []) (h : parted .cons (parts ++ [last]))
      (each : WrittenEach parted parts heads) (final : Written parted last tail) :
      Bare parted ('(' :: [':'].intercalate (parts ++ [last]) ++ [')']) (.cons heads tail)
  | named {name text inner} (h : Identifier name) (body : Written parted text inner) :
      Bare parted (name ++ '@' :: text) (.named (String.ofList name) inner)

/-- As many texts as patterns, each of which is written in its own. -/
inductive WrittenEach (parted : Enclosure → List (List Char) → Prop) :
    List (List Char) → List Pattern → Prop where
  | nil : WrittenEach parted [] []
  | cons {text p texts ps} (first : Written parted text p) (others : WrittenEach parted texts ps) :
      WrittenEach parted (text :: texts) (p :: ps)
end

/-- The documented grammar. -/
abbrev Derives : List Char → Pattern → Prop :=
  Written fun _ _ => True

/-- The grammar of texts whose groups fall into their parts at the delimiters. -/
abbrev Legible : List Char → Pattern → Prop :=
  Written Enclosure.Divides

mutual
/-- The strings of a pattern, from left to right. -/
def strings : Pattern → List String
  | wildcard | ident _ | bool _ | number _ => []
  | str text => [text]
  | array items => stringsEach items
  | cons heads tail => stringsEach heads ++ strings tail
  | named _ inner => strings inner

def stringsEach : List Pattern → List String
  | [] => []
  | p :: ps => strings p ++ stringsEach ps
end

/-- Holds of brackets and delimiters, which make up the structure of groups. -/
def isSign (c : Char) : Bool :=
  [',', ':', '[', ']', '(', ')'].contains c

mutual
/-- The brackets and delimiters in every text of a pattern, those in its strings included. -/
def skeleton : Pattern → List Char
  | wildcard | ident _ | bool _ | number _ => []
  | str text => text.toList.filter isSign
  | array items => '[' :: Enclosure.array.join (skeletonEach items) ++ [']']
  | cons heads tail => '(' :: Enclosure.cons.join (skeletonEach heads ++ [skeleton tail]) ++ [')']
  | named _ inner => skeleton inner

def skeletonEach : List Pattern → List (List Char)
  | [] => []
  | p :: ps => skeleton p :: skeletonEach ps
end

theorem skeletonEach_eq_map (ps : List Pattern) : skeletonEach ps = ps.map skeleton := by
  induction ps with
  | nil => rfl
  | cons p ps ih => rw [skeletonEach, ih, List.map_cons]

end Destructure.Pattern
