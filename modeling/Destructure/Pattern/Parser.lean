import Destructure.Error
import Destructure.Pattern.Shape

/-! # Patterns read from text

A text is a pattern if it has a shape and all parts of that shape are patterns.  Parts are read one
level deeper than the whole, in the order of the text, but the tail of a cons group comes before its
heads.  The first refusal stands for the whole text.

A limit on the depth is looked at before the text is.
-/

namespace Destructure.Pattern

/-- The limit, if the depth goes past it. -/
def exceeded? (limit : Option Nat) (depth : Nat) : Option Nat :=
  limit.filter (· < depth)

private theorem length_part_lt {text part : List Char} {s : Shape}
    (h : Shape.ofText? (Text.trim text) = some s) (hp : part ∈ s.parts) :
    part.length < text.length := by
  have := Text.length_trim_le text
  have := Shape.length_part_le h hp
  omega

/-- The pattern that a text at the given depth denotes. -/
def parseAt (limit : Option Nat) (depth : Nat) (text : List Char) : Except MatchError Pattern :=
  let body := Text.trim text
  match exceeded? limit depth with
  | some limit => .error (.depthLimit limit)
  | none =>
    match _h : Shape.ofText? body with
    | none => .error (.invalidPattern (String.ofList body))
    | some (.atom a) => .ok a.toPattern
    | some (.array items) => do
      let items ← items.attach.mapM fun ⟨item, _⟩ => parseAt limit (depth + 1) item
      return .array items
    | some (.cons heads tail) => do
      let tail ← parseAt limit (depth + 1) tail
      let heads ← heads.attach.mapM fun ⟨head, _⟩ => parseAt limit (depth + 1) head
      return .cons heads tail
    | some (.named name inner) => do
      let inner ← parseAt limit (depth + 1) inner
      return .named (String.ofList name) inner
termination_by text.length
decreasing_by
  all_goals
    refine length_part_lt _h ?_
    simp_all [Shape.parts]

/-- One level of reading, in terms of the parts of the text's shape. -/
theorem parseAt_eq (limit : Option Nat) (depth : Nat) (text : List Char) :
    parseAt limit depth text =
      match exceeded? limit depth with
      | some limit => .error (.depthLimit limit)
      | none =>
        match Shape.ofText? (Text.trim text) with
        | none => .error (.invalidPattern (String.ofList (Text.trim text)))
        | some (.atom a) => .ok a.toPattern
        | some (.array items) => do
          let items ← items.mapM (parseAt limit (depth + 1))
          return .array items
        | some (.cons heads tail) => do
          let tail ← parseAt limit (depth + 1) tail
          let heads ← heads.mapM (parseAt limit (depth + 1))
          return .cons heads tail
        | some (.named name inner) => do
          let inner ← parseAt limit (depth + 1) inner
          return .named (String.ofList name) inner := by
  rw [parseAt]
  simp only
  split
  · rfl
  · split <;> simp_all

/-- The pattern that a text denotes, without a limit on its depth. -/
def parse (text : String) : Except MatchError Pattern :=
  parseAt none 0 text.toList

end Destructure.Pattern
