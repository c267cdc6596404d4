import Destructure.Proofs.Pattern.Reading

/-! # Where refusals come from

Reading a text reads parts of it, and these are texts of their own: pieces of the whole that stand one
level deeper.  Parts are read in order until one of them is refused.  Following the refused parts down
leads to a text that has no shape, of which no part is read at all, and this is the text that the
refusal names.
-/

namespace Destructure

/-! ## Parts stand in the text -/

theorem Enclosure.infix_of_mem_fields? {e : Enclosure} (solid : e.Solid) {text field : List Char}
    {fields : List (List Char)} (found : e.fields? text = some fields) (member : field ∈ fields) :
    field <:+: text := by
  obtain ⟨-, rfl⟩ | ⟨-, -, rfl⟩ := (Enclosure.fields?_eq_some_iff solid).mp found
  · cases member
  · obtain ⟨piece, inPieces, rfl⟩ := List.mem_map.mp member
    have inside : piece <:+: e.join (e.pieces 0 text) := infix_intercalate inPieces
    rw [Enclosure.join_pieces] at inside
    exact (Text.trim_isInfix piece).trans inside

theorem Shape.infix_of_mem_parts {text part : List Char} {s : Shape} (outlines : Outlines text s)
    (member : part ∈ s.parts) : part <:+: text := by
  have enclosed : ∀ (body : List Char) (first last : Char), body <:+: first :: body ++ [last] :=
    fun body first last => ⟨[first], [last], rfl⟩
  cases outlines with
  | atom spells => cases member
  | @array body items fields =>
      exact (Enclosure.infix_of_mem_fields? Enclosure.array_solid fields member).trans (enclosed ..)
  | @cons body heads tail nonempty fields =>
      exact (Enclosure.infix_of_mem_fields? Enclosure.cons_solid fields member).trans (enclosed ..)
  | @named name inner isName visible =>
      rw [List.mem_singleton.mp member]
      exact ⟨name ++ ['@'], [], by simp⟩

namespace Pattern

theorem Reads.isInfix {limit : Option Nat} {depth : Nat} {text part : List Char}
    (reads : Reads limit depth text part) : part <:+: text := by
  obtain ⟨s, found, member⟩ := reads.exists_shape
  have inside := Shape.infix_of_mem_parts (Shape.ofText?_eq_some_iff.mp found) member
  exact inside.trans (Text.trim_isInfix text)

/-! ## All that is read for a text -/

/-- Reading the text reads the piece so many levels below it. -/
inductive Visits (limit : Option Nat) (text : List Char) : Nat → List Char → Prop where
  | start : Visits limit text 0 text
  | part {level piece part} (above : Visits limit text level piece)
      (reads : Reads limit level piece part) : Visits limit text (level + 1) part

namespace Visits

variable {limit : Option Nat} {text piece : List Char} {level : Nat}

theorem isInfix (visits : Visits limit text level piece) : piece <:+: text := by
  induction visits with
  | start => exact List.infix_rfl
  | part above reads ih => exact reads.isInfix.trans ih

/-- No part is read of a text without a shape. -/
theorem level_eq_zero (absent : Shape.ofText? (Text.trim text) = none)
    (visits : Visits limit text level piece) : level = 0 ∧ piece = text := by
  induction visits with
  | start => exact ⟨rfl, rfl⟩
  | part above reads ih =>
      obtain ⟨rfl, rfl⟩ := ih
      obtain ⟨s, found, -⟩ := reads.exists_shape
      rw [absent] at found
      cases found

end Visits

/-- A refusal without a limit leads down to a piece that has no shape. -/
theorem exists_visits_of_refused {text piece : List Char} {level : Nat} {e : MatchError}
    (visits : Visits none text level piece) (refused : parseAt none level piece = .error e) :
    ∃ level' piece', Visits none text level' piece' ∧ Shape.ofText? (Text.trim piece') = none ∧
      e = .invalidPattern (String.ofList (Text.trim piece')) := by
  induction piece using partsInduction generalizing level with
  | level piece ih =>
      -- no depth is past a limit that is not there, which leaves two causes
      obtain ⟨bound, ⟨⟩, -⟩ | ⟨-, absent, blames⟩ | ⟨part, reads, refused⟩ :=
        parseAt_eq_error_iff.mp refused
      · exact ⟨level, piece, visits, absent, blames⟩
      · obtain ⟨s, found, member⟩ := reads.exists_shape
        exact ih s part found member (.part visits reads) refused

/-- A refusal names the innermost piece that is refused: a trimmed stretch of the text, which is the
text itself or was read as a part of it, and which is refused by itself and names itself then, while
nothing that is read for it is refused. -/
theorem parse_error_innermost (text : String) (e : MatchError) (refused : parse text = .error e) :
    ∃ piece : String, e = .invalidPattern piece ∧
      Text.trim piece.toList = piece.toList ∧
      piece.toList <:+: text.toList ∧
      (∃ level part, Visits none text.toList level part ∧ Text.trim part = piece.toList) ∧
      parse piece = .error (.invalidPattern piece) ∧
      ∀ level part, Visits none piece.toList (level + 1) part →
        ∃ p, parseAt none (level + 1) part = .ok p := by
  obtain ⟨level, part, visits, absent, rfl⟩ := exists_visits_of_refused .start refused
  have alone : Shape.ofText? (Text.trim (Text.trim part)) = none := by
    rwa [Text.trim_trim]
  refine ⟨String.ofList (Text.trim part), rfl, ?_⟩
  simp only [parse_eq_read, String.toList_ofList]
  refine ⟨Text.trim_trim part, ?_, ⟨level, part, visits, rfl⟩, ?_, ?_⟩
  · exact (Text.trim_isInfix part).trans visits.isInfix
  · rw [read_of_no_shape alone, Text.trim_trim]
  · intro inner other read
    obtain ⟨zero, -⟩ := read.level_eq_zero alone
    cases zero

/-- The refused piece is an item of an array that is the second head of a cons group. -/
theorem parse_error_innermost_nested :
    parse " (a : x@[b, (c::d) ,e]: t)" = .error (.invalidPattern "(c::d)") ∧
      parse "(c::d)" = .error (.invalidPattern "(c::d)") := by
  have refused : parse " (a : x@[b, (c::d) ,e]: t)" = .error (.invalidPattern "(c::d)") :=
    eq_error_of_map_eq_error (fun _ => ()) (by decide +kernel)
  obtain ⟨piece, blames, -, -, -, alone, -⟩ := parse_error_innermost _ _ refused
  cases blames
  exact ⟨refused, alone⟩

end Pattern

end Destructure
