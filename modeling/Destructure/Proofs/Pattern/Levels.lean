import Destructure.Pattern.Parser
import Destructure.Proofs.Sequencing

/-! # Reading, level by level

One level of reading finds the shape of a text; all else is up to the parts of that shape, which are
shorter.  So what a text inherits from the parts of its shape holds of every text, and a text that
is refused is refused at its own level or because one of its parts is.
-/

namespace Destructure

/-- The parts in the order in which they are read. -/
def Shape.readingOrder : Shape → List (List Char)
  | atom _ => []
  | array items => items
  | cons heads tail => tail :: heads
  | named _ inner => [inner]

theorem Shape.mem_readingOrder {s : Shape} {part : List Char} :
    part ∈ s.readingOrder ↔ part ∈ s.parts := by
  cases s with
  | cons heads tail => simp [readingOrder, parts, or_comm]
  | atom | array | named => rfl

namespace Pattern

/-- Induction along the parts of texts. -/
theorem partsInduction {motive : List Char → Prop}
    (level : ∀ text, (∀ s part, Shape.ofText? (Text.trim text) = some s → part ∈ s.parts →
      motive part) → motive text)
    (text : List Char) : motive text := by
  induction length : text.length using Nat.strongRecOn generalizing text with
  | _ n ih =>
      apply level
      intro s part found member
      have := Shape.length_part_le found member
      have := Text.length_trim_le text
      exact ih part.length (by omega) part rfl

/-- Reading the text at this depth reads the part, one level deeper: the text is not past the limit,
and every part that comes before this one is a pattern. -/
def Reads (limit : Option Nat) (depth : Nat) (text part : List Char) : Prop :=
  exceeded? limit depth = none ∧ ∃ s before after, Shape.ofText? (Text.trim text) = some s ∧
    s.readingOrder = before ++ part :: after ∧
      ∀ other ∈ before, ∃ p, parseAt limit (depth + 1) other = .ok p

theorem Reads.exists_shape {limit : Option Nat} {depth : Nat} {text part : List Char}
    (reads : Reads limit depth text part) :
    ∃ s, Shape.ofText? (Text.trim text) = some s ∧ part ∈ s.parts := by
  obtain ⟨-, s, before, after, found, order, -⟩ := reads
  refine ⟨s, found, Shape.mem_readingOrder.mp ?_⟩
  rw [order]
  exact List.mem_append_right _ List.mem_cons_self

/-- A text is refused for its depth, for want of a shape, or because a part that is read is refused. -/
theorem parseAt_eq_error_iff {limit : Option Nat} {depth : Nat} {text : List Char} {e : MatchError} :
    parseAt limit depth text = .error e ↔
      (∃ bound, exceeded? limit depth = some bound ∧ e = .depthLimit bound) ∨
      (exceeded? limit depth = none ∧ Shape.ofText? (Text.trim text) = none ∧
        e = .invalidPattern (String.ofList (Text.trim text))) ∨
      ∃ part, Reads limit depth text part ∧ parseAt limit (depth + 1) part = .error e := by
  rw [parseAt_eq]
  cases exceeds : exceeded? limit depth with
  | some bound => simp [Reads, exceeds, eq_comm]
  | none =>
      cases found : Shape.ofText? (Text.trim text) with
      | none => simp [Reads, exceeds, found, eq_comm]
      | some s =>
          -- whatever the shape, the level fails as the traversal of its parts in reading order does
          have first : (∃ part, Reads limit depth text part ∧
              parseAt limit (depth + 1) part = .error e) ↔
                s.readingOrder.mapM (parseAt limit (depth + 1)) = .error e := by
            simp only [Reads, exceeds, found, true_and, Option.some.injEq, mapM_eq_error_iff]
            constructor
            · rintro ⟨part, ⟨_, before, after, rfl, order, accepted⟩, refused⟩
              exact ⟨before, part, after, order, accepted, refused⟩
            · rintro ⟨before, part, after, order, accepted, refused⟩
              exact ⟨part, ⟨s, before, after, rfl, order, accepted⟩, refused⟩
          simp only [reduceCtorEq, false_and, exists_false, and_false, false_or, first]
          cases s with
          | atom | array | cons | named =>
              simp [Shape.readingOrder, bind_eq_error_iff, pure, Except.pure]

theorem eq_of_exceeded? {limit : Option Nat} {depth bound : Nat}
    (h : exceeded? limit depth = some bound) : limit = some bound :=
  (Option.filter_eq_some_iff.mp h).1

/-- A text is refused for a limit or for a piece that has no shape, and for nothing else. -/
theorem refusal_kind {limit : Option Nat} {depth : Nat} {text : List Char} {e : MatchError}
    (h : parseAt limit depth text = .error e) :
    (∃ bound, limit = some bound ∧ e = .depthLimit bound) ∨ ∃ piece, e = .invalidPattern piece := by
  induction text using partsInduction generalizing depth with
  | level text ih =>
      obtain ⟨bound, exceeds, rfl⟩ | ⟨-, -, rfl⟩ | ⟨part, reads, refused⟩ :=
        parseAt_eq_error_iff.mp h
      · exact .inl ⟨bound, eq_of_exceeded? exceeds, rfl⟩
      · exact .inr ⟨_, rfl⟩
      · obtain ⟨s, found, member⟩ := reads.exists_shape
        exact ih s part found member refused

end Pattern

end Destructure
