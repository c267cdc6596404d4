import Destructure.Proofs.Pattern.Display
import Destructure.Proofs.Pattern.Matching

/-! # Bound values are smaller

No value that a pattern binds is larger than the value that is matched.  It is smaller, unless its name
stands at the root of the pattern and so stands for the whole value.

The ending of a list that the tail of a cons group is matched with is a list of its own and no part of
the value.  It is smaller since a group that was read has a head.
-/

namespace Destructure

namespace Value

mutual
/-- One for a value without items; a list has one more than all of its items together. -/
def size : Value → Nat
  | null | bool _ | number _ | str _ => 1
  | list items => 1 + sizeEach items

def sizeEach : List Value → Nat
  | [] => 0
  | v :: vs => size v + sizeEach vs
end

theorem size_pos (v : Value) : 0 < v.size := by
  cases v with
  | null | bool | number | str => exact Nat.one_pos
  | list items =>
      rw [size]
      omega

theorem sizeEach_append (vs ws : List Value) :
    sizeEach (vs ++ ws) = sizeEach vs + sizeEach ws := by
  induction vs with
  | nil => exact (Nat.zero_add _).symm
  | cons v vs ih => rw [List.cons_append, sizeEach, sizeEach, ih, Nat.add_assoc]

theorem size_item_lt {v : Value} {items : List Value} (member : v ∈ items) :
    v.size < (list items).size := by
  obtain ⟨before, after, rfl⟩ := List.append_of_mem member
  rw [size, sizeEach_append, sizeEach]
  omega

theorem size_ending_le (front rest : List Value) :
    (list rest).size ≤ (list (front ++ rest)).size := by
  rw [size, size, sizeEach_append]
  omega

theorem size_ending_lt {front : List Value} (nonempty : front ≠ []) (rest : List Value) :
    (list rest).size < (list (front ++ rest)).size := by
  obtain ⟨v, vs, rfl⟩ := List.exists_cons_of_ne_nil nonempty
  have positive := v.size_pos
  rw [size, size, sizeEach_append, sizeEach]
  omega

theorem hereditary_size_lt (bound : Nat) : Pattern.Hereditary fun v => v.size < bound where
  item small member := Nat.lt_trans (size_item_lt member) small
  ending small := Nat.lt_of_le_of_lt (size_ending_le _ _) small

end Value

namespace Pattern

/-- The names that stand for the whole value: that of a pattern which is only a name, and those of
patterns that are named. -/
def rootBinders : Pattern → List String
  | ident name => [name]
  | named name inner => name :: rootBinders inner
  | wildcard | bool _ | number _ | str _ | array _ | cons _ _ => []

theorem Fits.size_le {p s v} (h : Fits p s v) : ∀ entry ∈ s, entry.2.size ≤ v.size := by
  intro entry member
  have small := h.bound (Value.hereditary_size_lt (v.size + 1)) (Nat.lt_succ_self _) entry member
  exact Nat.le_of_lt_succ small

theorem Fits.size_lt {p s v} (h : Fits p s v) (formed : p.WellFormed) :
    ∀ entry ∈ s, entry.1 ∉ p.rootBinders → entry.2.size < v.size := by
  cases p with
  | wildcard | bool | number | str =>
      cases h
      nofun
  | ident name =>
      cases h
      intro entry member below
      rw [List.mem_singleton.mp member] at below
      exact absurd List.mem_cons_self below
  | array items =>
      cases h with | @array _ _ vs each =>
      intro entry member _
      exact each.bound (Value.hereditary_size_lt _) (fun w => Value.size_item_lt) entry member
  | cons heads tail =>
      cases h with | @cons _ _ s u front rest each last =>
      have nonempty : front ≠ [] := by
        rintro rfl
        exact formed.1 (List.length_eq_zero_iff.mp each.length_eq.symm)
      have parts := Value.hereditary_size_lt (Value.list (front ++ rest)).size
      have inFront := each.bound parts fun w member =>
        Value.size_item_lt (List.mem_append_left rest member)
      have inRest := last.bound parts (Value.size_ending_lt nonempty rest)
      intro entry member _
      rcases List.mem_append.mp member with early | late
      · exact inFront entry early
      · exact inRest entry late
  | named name inner =>
      cases h with | named body =>
      intro entry member below
      rw [rootBinders, List.mem_cons, not_or] at below
      rcases List.mem_cons.mp member with rfl | inside
      · exact absurd rfl below.1
      · exact body.size_lt formed.2 entry inside below.2
termination_by sizeOf p

/-- A name at the root stands for the whole value. -/
theorem Fits.root {p s v} (h : Fits p s v) {name : String} (root : name ∈ p.rootBinders) :
    (name, v) ∈ s := by
  cases p with
  | wildcard | bool | number | str | array | cons => cases root
  | ident x =>
      cases h
      rw [List.mem_singleton.mp root]
      exact List.mem_cons_self
  | named x inner =>
      cases h with | named body =>
      rcases List.mem_cons.mp root with rfl | inside
      · exact List.mem_cons_self
      · exact List.mem_cons_of_mem _ (body.root inside)
termination_by sizeOf p

theorem wellFormed_of_parse {text : String} {p : Pattern} (h : parse text = .ok p) : p.WellFormed :=
  wellFormed_of_written (read_iff.mp h).1

/-- What a pattern that was read binds is no larger than the value, and smaller exactly if its name
stands below the root. -/
theorem size_bound {text : String} {p : Pattern} (read : parse text = .ok p) {v : Value}
    {b : Bindings} (matched : p.destructure v = .ok (some b)) {name : String} {w : Value}
    (member : (name, w) ∈ b.entries) :
    w.size ≤ v.size ∧ (w.size < v.size ↔ name ∉ p.rootBinders) := by
  obtain ⟨fits, distinct⟩ := fits_of_destructure matched
  refine ⟨fits.size_le _ member, ?_, fits.size_lt (wellFormed_of_parse read) _ member⟩
  intro smaller root
  have whole := Bindings.get?_of_mem distinct (fits.root root)
  rw [Bindings.get?_of_mem distinct member] at whole
  cases whole
  exact Nat.lt_irrefl _ smaller

end Pattern

end Destructure
