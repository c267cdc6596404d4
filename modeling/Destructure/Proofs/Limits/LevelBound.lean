import Destructure.Proofs.Pattern.Nesting
import Destructure.Proofs.Pattern.Refusal
import Mathlib.Data.String.Basic

/-! # Nesting is bounded by length

A part of a text is not blank, and two characters of the text at least belong to no part: the brackets
around the parts, or the name and the sign in front of one.  So every level of reading costs two bytes,
whether or not the text is a pattern in the end.  A limit on the length is therefore a limit on the depth
as well, and a limit on the depth does not concern a text without the bytes for the level past it.
-/

namespace Destructure

open String (utf8Len utf8Len_append utf8Len_le_of_infix)

namespace Text

theorem utf8Len_toList (text : String) : utf8Len text.toList = text.utf8ByteSize := by
  rw [← String.utf8ByteSize_ofList, String.ofList_toList]

theorem length_le_utf8Len (text : List Char) : text.length ≤ utf8Len text := by
  induction text with
  | nil => exact Nat.le_refl 0
  | cons c text ih =>
      have := c.utf8Size_pos
      simp only [List.length_cons, String.utf8Len]
      omega

/-- Characters that stand beside a stretch of a text take up a byte each at least. -/
theorem utf8Len_add_le {part text : List Char} (inside : part <:+: text) {count : Nat}
    (beside : part.length + count ≤ text.length) : utf8Len part + count ≤ utf8Len text := by
  obtain ⟨before, after, rfl⟩ := inside
  have front := length_le_utf8Len before
  have back := length_le_utf8Len after
  simp only [List.length_append, utf8Len_append] at beside ⊢
  omega

theorem utf8Len_pos {text : List Char} (visible : ¬ Blank text) : 0 < utf8Len text := by
  have nonempty : text ≠ [] := fun empty => visible (empty ▸ blank_nil)
  exact Nat.lt_of_lt_of_le (List.length_pos_iff.mpr nonempty) (length_le_utf8Len text)

end Text

/-! ## One level -/

theorem Enclosure.visible_of_mem_fields? {e : Enclosure} (solid : e.Solid) {text field : List Char}
    {fields : List (List Char)} (found : e.fields? text = some fields) (member : field ∈ fields) :
    ¬ Text.Blank field := by
  obtain ⟨-, rfl⟩ | ⟨-, visible, rfl⟩ := (Enclosure.fields?_eq_some_iff solid).mp found
  · cases member
  · obtain ⟨piece, inPieces, rfl⟩ := List.mem_map.mp member
    rw [← Text.trim_eq_nil_iff, Text.trim_trim, Text.trim_eq_nil_iff]
    exact visible piece inPieces

theorem Shape.visible_of_mem_parts {text part : List Char} {s : Shape} (outlines : Outlines text s)
    (member : part ∈ s.parts) : ¬ Text.Blank part := by
  cases outlines with
  | atom spells => cases member
  | array fields => exact Enclosure.visible_of_mem_fields? Enclosure.array_solid fields member
  | cons nonempty fields =>
      exact Enclosure.visible_of_mem_fields? Enclosure.cons_solid fields member
  | named isName visible => rwa [List.mem_singleton.mp member]

namespace Pattern

namespace Reads

variable {limit : Option Nat} {depth : Nat} {text part : List Char}

theorem visible (reads : Reads limit depth text part) : ¬ Text.Blank part := by
  obtain ⟨s, found, member⟩ := reads.exists_shape
  exact Shape.visible_of_mem_parts (Shape.ofText?_eq_some_iff.mp found) member

theorem utf8Len_le (reads : Reads limit depth text part) : utf8Len part + 2 ≤ utf8Len text := by
  obtain ⟨s, found, member⟩ := reads.exists_shape
  have inside := Shape.infix_of_mem_parts (Shape.ofText?_eq_some_iff.mp found) member
  calc utf8Len part + 2
    _ ≤ utf8Len (Text.trim text) := Text.utf8Len_add_le inside (Shape.length_part_le found member)
    _ ≤ utf8Len text := utf8Len_le_of_infix (Text.trim_isInfix text)

end Reads

/-! ## All levels -/

namespace Visits

variable {limit : Option Nat} {bound level : Nat} {text piece : List Char}

theorem utf8Len_le (visits : Visits limit text level piece) :
    utf8Len piece + 2 * level ≤ utf8Len text := by
  induction visits with
  | start => exact Nat.le_refl _
  | part above reads ih =>
      have := reads.utf8Len_le
      omega

theorem visible (visits : Visits limit text (level + 1) piece) : ¬ Text.Blank piece := by
  cases visits with
  | part above reads => exact reads.visible

/-- Below the text itself there is a byte left at least. -/
theorem two_mul_level_lt (visits : Visits limit text (level + 1) piece) :
    2 * (level + 1) < utf8Len text := by
  have room := visits.utf8Len_le
  have := Text.utf8Len_pos visits.visible
  omega

/-- The first level past the limit is the last one that is read. -/
theorem level_le (visits : Visits (some bound) text level piece) : level ≤ bound + 1 := by
  cases visits with
  | start => exact Nat.zero_le _
  | part above reads => simpa [exceeded?] using reads.1

theorem refused {e : MatchError} (visits : Visits limit text level piece)
    (refused : parseAt limit level piece = .error e) : parseAt limit 0 text = .error e := by
  induction visits with
  | start => exact refused
  | part above reads ih => exact ih (parseAt_eq_error_iff.mpr (.inr (.inr ⟨_, reads, refused⟩)))

end Visits

/-- A refusal for depth leads down to a piece past the limit. -/
theorem exists_visits_of_depthLimit {limit : Option Nat} {bound level : Nat} {text piece : List Char}
    (visits : Visits limit text level piece)
    (refused : parseAt limit level piece = .error (.depthLimit bound)) :
    limit = some bound ∧ ∃ level' piece', Visits limit text level' piece' ∧ bound < level' := by
  induction piece using partsInduction generalizing level with
  | level piece ih =>
      obtain ⟨other, exceeds, blames⟩ | ⟨-, -, ⟨⟩⟩ | ⟨part, reads, refused⟩ :=
        parseAt_eq_error_iff.mp refused
      · cases blames
        obtain ⟨limited, past⟩ := Option.filter_eq_some_iff.mp exceeds
        exact ⟨limited, level, piece, visits, of_decide_eq_true past⟩
      · obtain ⟨s, found, member⟩ := reads.exists_shape
        exact ih s part found member (.part visits reads) refused

/-- A text is refused for its depth exactly if reading it comes to the level past the limit. -/
theorem parseAt_eq_depthLimit_iff {limit : Option Nat} {bound : Nat} {text : List Char} :
    parseAt limit 0 text = .error (.depthLimit bound) ↔
      limit = some bound ∧ ∃ piece, Visits limit text (bound + 1) piece := by
  constructor
  · intro refused
    obtain ⟨rfl, level, piece, visits, past⟩ := exists_visits_of_depthLimit .start refused
    obtain rfl : level = bound + 1 := Nat.le_antisymm visits.level_le past
    exact ⟨rfl, piece, visits⟩
  · rintro ⟨rfl, piece, visits⟩
    have exceeds : exceeded? (some bound) (bound + 1) = some bound := by simp [exceeded?]
    exact visits.refused (parseAt_eq_error_iff.mpr (.inl ⟨bound, exceeds, rfl⟩))

/-- A text without the bytes for the level past the limit is read as without the limit. -/
theorem parseAt_of_short {bound : Nat} {text : List Char} (short : utf8Len text ≤ 2 * bound + 2) :
    parseAt (some bound) 0 text = read text := by
  obtain same | ⟨e, refused, refuses⟩ :=
    Limits.parseAt_follows (Limits.le_unlimited ⟨some bound, none⟩) 0 text
  · exact same
  · cases e with
    | depthLimit other =>
        obtain ⟨⟨⟩, piece, visits⟩ := parseAt_eq_depthLimit_iff.mp refused
        have := visits.two_mul_level_lt
        omega
    | lengthLimit => cases refuses
    | invalidPattern | duplicateBinding | nonExhaustive => exact refuses.elim

theorem depth_le_of_read {text : List Char} {p : Pattern} (accepted : read text = .ok p) :
    p.depth ≤ (utf8Len text - 1) / 2 := by
  have short : utf8Len text ≤ 2 * ((utf8Len text - 1) / 2) + 2 := by omega
  have read := (parseAt_of_short short).trans accepted
  rw [parseAt_within accepted, within, Nat.zero_add] at read
  split at read
  · assumption
  · cases read

/-! ## Texts with a level for every two bytes -/

/-- So many names before a wildcard, each of them for all that comes after it. -/
def tower : Nat → List Char
  | 0 => ['_']
  | levels + 1 => 'x' :: '@' :: tower levels

theorem utf8Len_tower (levels : Nat) : utf8Len (tower levels) = 2 * levels + 1 := by
  induction levels with
  | zero => rfl
  | succ levels ih =>
      have name : Char.utf8Size 'x' = 1 := rfl
      have sign : Char.utf8Size '@' = 1 := rfl
      simp only [tower, utf8Len, ih, name, sign]
      omega

theorem exists_read_tower (levels : Nat) : ∃ p, read (tower levels) = .ok p ∧ p.depth = levels := by
  induction levels with
  | zero => exact ⟨.wildcard, read_atom .wildcard, rfl⟩
  | succ levels ih =>
      obtain ⟨p, accepted, deep⟩ := ih
      have name : isName ['x'] = true := rfl
      have visible := visible_of_read accepted
      refine ⟨_, (read_named_iff name visible).mpr ⟨p, rfl, accepted⟩, ?_⟩
      rw [depth, deep]

end Pattern

/-! ## Under limits -/

namespace Limits

/-- Compiling the text reads the piece so many levels below it.  A text that is too long is not read
at all. -/
def Visits (limits : Limits) (text : String) (level : Nat) (piece : List Char) : Prop :=
  limits.maxLength.filter (· < text.utf8ByteSize) = none ∧
    Pattern.Visits limits.maxDepth text.toList level piece

variable {limits : Limits} {text : String} {level bound : Nat} {piece : List Char}

theorem Visits.two_mul_level_lt (visits : limits.Visits text (level + 1) piece) :
    2 * (level + 1) < text.utf8ByteSize := by
  rw [← Text.utf8Len_toList]
  exact visits.2.two_mul_level_lt

theorem Visits.level_le_of_maxLength (visits : limits.Visits text level piece)
    (limited : limits.maxLength = some bound) : level ≤ (bound - 1) / 2 := by
  cases level with
  | zero => exact Nat.zero_le _
  | succ level =>
      have room := visits.two_mul_level_lt
      have fits : text.utf8ByteSize ≤ bound := by simpa [limited] using visits.1
      omega

theorem compile_eq_depthLimit_iff : limits.compile text = .error (.depthLimit bound) ↔
    limits.maxDepth = some bound ∧ ∃ piece, limits.Visits text (bound + 1) piece := by
  simp only [compile, Visits]
  cases limits.maxLength.filter (· < text.utf8ByteSize) with
  | some limit => simp
  | none => simp [Pattern.parseAt_eq_depthLimit_iff]

/-- Matching is never refused for the depth of the text. -/
theorem destructure_eq_depthLimit_iff {value : Value} :
    limits.destructure text value = .error (.depthLimit bound) ↔
      limits.compile text = .error (.depthLimit bound) := by
  rw [destructure_eq_bind, bind_eq_error_iff]
  constructor
  · rintro (refused | ⟨p, -, refused⟩)
    · exact refused
    · have described := p.destructure_describes value
      rw [refused] at described
      obtain ⟨names, ⟨⟩, -⟩ := described
  · exact .inl

theorem compile_of_short (limited : limits.maxDepth = some bound)
    (short : text.utf8ByteSize ≤ 2 * bound + 2) :
    limits.compile text = (⟨none, limits.maxLength⟩ : Limits).compile text := by
  rw [← Text.utf8Len_toList] at short
  rw [compile, limited, Pattern.parseAt_of_short short]
  rfl

/-- Nesting is bounded by length.  Whatever is read below a text is visible and leaves two bytes to each
level above it, under all limits and whether or not the text is accepted.  So a limit of `bound` on the
depth makes no difference to texts of up to `2 * bound + 2` bytes, no pattern is deeper than half the
bytes of its text, and a limit on the length bounds the levels that are read.  Some text of one byte more
than that is too deep. -/
theorem nesting_bounded_by_length :
    (∀ (limits : Limits) (text : String),
      (∀ level piece, limits.Visits text (level + 1) piece → ¬ Text.Blank piece ∧
        (String.ofList piece).utf8ByteSize + 2 * (level + 1) ≤ text.utf8ByteSize) ∧
      (∀ bound, limits.maxDepth = some bound → text.utf8ByteSize ≤ 2 * bound + 2 →
        (∀ other, limits.compile text ≠ .error (.depthLimit other)) ∧
        (∀ other value, limits.destructure text value ≠ .error (.depthLimit other)) ∧
        limits.compile text = (⟨none, limits.maxLength⟩ : Limits).compile text ∧
        (limits.maxLength = none → limits.compile text = Pattern.parse text)) ∧
      (∀ p, limits.compile text = .ok p → p.depth ≤ (text.utf8ByteSize - 1) / 2) ∧
      (∀ bound, limits.maxLength = some bound → ∀ level piece, limits.Visits text level piece →
        level ≤ (bound - 1) / 2)) ∧
    ∀ bound, ∃ text : String, text.utf8ByteSize = 2 * bound + 3 ∧
      (⟨some bound, none⟩ : Limits).compile text = .error (.depthLimit bound) := by
  constructor
  · intro limits text
    refine ⟨?_, ?_, ?_, ?_⟩
    · intro level piece visits
      rw [String.utf8ByteSize_ofList, ← Text.utf8Len_toList]
      exact ⟨visits.2.visible, visits.2.utf8Len_le⟩
    · intro bound limited short
      have never : ∀ other, limits.compile text ≠ .error (.depthLimit other) := by
        intro other refused
        obtain ⟨same, piece, visits⟩ := compile_eq_depthLimit_iff.mp refused
        cases limited.symm.trans same
        have := visits.two_mul_level_lt
        omega
      have same := compile_of_short limited short
      refine ⟨never, ?_, same, ?_⟩
      · intro other value refused
        exact never other (destructure_eq_depthLimit_iff.mp refused)
      · intro unlimited
        rw [same, unlimited]
        rfl
    · intro p accepted
      rw [← Text.utf8Len_toList]
      exact Pattern.depth_le_of_read (parse_of_compile accepted)
    · intro bound limited level piece visits
      exact visits.level_le_of_maxLength limited
  · intro bound
    obtain ⟨p, accepted, deep⟩ := Pattern.exists_read_tower (bound + 1)
    refine ⟨String.ofList (Pattern.tower (bound + 1)), ?_, ?_⟩
    · rw [String.utf8ByteSize_ofList, Pattern.utf8Len_tower]
      omega
    · have tooDeep : ¬ 0 + p.depth ≤ bound := by omega
      rw [compile, String.toList_ofList]
      exact (Pattern.parseAt_within accepted bound 0).trans (if_neg tooDeep)

end Limits

end Destructure
