import Destructure.Pattern.Basic
import Destructure.Value

/-! # When a value fits a pattern

The declarative side of matching.  `Fits p s v` says that `v` has the form that `p` describes and
that `s` are the names of `p` with what they stand for in `v`.  It knows nothing of merging: a name
that `p` binds twice simply occurs twice in `s`.
-/

namespace Destructure.Pattern

mutual
/-- `v` has the form of the pattern, and the list holds the bound names from left to right. -/
inductive Fits : Pattern → List (String × Value) → Value → Prop where
  | wildcard (v : Value) : Fits .wildcard [] v
  | ident (name : String) (v : Value) : Fits (.ident name) [(name, v)] v
  | bool (b : Bool) : Fits (.bool b) [] (.bool b)
  /-- Numbers are compared by value. -/
  | number {n m : Number} (same : (m == n) = true) : Fits (.number n) [] (.number m)
  | str (text : String) : Fits (.str text) [] (.str text)
  | array {items s vs} (each : FitsEach items s vs) : Fits (.array items) s (.list vs)
  | cons {heads tail s u front rest} (each : FitsEach heads s front)
      (last : Fits tail u (.list rest)) : Fits (.cons heads tail) (s ++ u) (.list (front ++ rest))
  | named {name inner s v} (body : Fits inner s v) : Fits (.named name inner) ((name, v) :: s) v

/-- As many values as patterns, which fit one by one. -/
inductive FitsEach : List Pattern → List (String × Value) → List Value → Prop where
  | nil : FitsEach [] [] []
  | cons {p ps s u v vs} (first : Fits p s v) (others : FitsEach ps u vs) :
      FitsEach (p :: ps) (s ++ u) (v :: vs)
end

mutual
/-- The names that a pattern binds, from left to right, repeated ones included. -/
def binders : Pattern → List String
  | wildcard | bool _ | number _ | str _ => []
  | ident name => [name]
  | array items => bindersEach items
  | cons heads tail => bindersEach heads ++ binders tail
  | named name inner => name :: binders inner

def bindersEach : List Pattern → List String
  | [] => []
  | p :: ps => binders p ++ bindersEach ps
end

namespace FitsEach

theorem length_eq {ps s vs} (h : FitsEach ps s vs) : vs.length = ps.length := by
  induction ps generalizing s vs with
  | nil => cases h; rfl
  | cons p ps ih =>
      cases h with
      | cons first others => simp only [List.length_cons, ih others]

theorem take_eq {ps s front} (h : FitsEach ps s front) (rest : List Value) :
    (front ++ rest).take ps.length = front := by
  rw [← h.length_eq, List.take_left]

theorem drop_eq {ps s front} (h : FitsEach ps s front) (rest : List Value) :
    (front ++ rest).drop ps.length = rest := by
  rw [← h.length_eq, List.drop_left]

end FitsEach

mutual
theorem Fits.names {p s v} (h : Fits p s v) : s.map Prod.fst = p.binders := by
  cases h with
  | wildcard | bool | number | str | ident => rfl
  | array each => exact each.names
  | cons each last => rw [List.map_append, binders, each.names, last.names]
  | named body => rw [List.map_cons, binders, body.names]

theorem FitsEach.names {ps s vs} (h : FitsEach ps s vs) : s.map Prod.fst = bindersEach ps := by
  cases h with
  | nil => rfl
  | cons first others => rw [List.map_append, bindersEach, first.names, others.names]
end

mutual
/-- A value fits a pattern in one way at most. -/
theorem Fits.unique {p s t v} (h : Fits p s v) (k : Fits p t v) : s = t := by
  cases p with
  | wildcard | bool | number | str | ident => cases h; cases k; rfl
  | array items =>
      cases h with | array each =>
      cases k with | array each' => exact each.unique each'
  | cons heads tail =>
      generalize hv : v = w at k
      cases h with | @cons _ _ s u front rest each last =>
      cases k with | @cons _ _ s' u' front' rest' each' last' =>
      injection hv with hl
      have hfront : front = front' := by rw [← each.take_eq rest, hl, each'.take_eq]
      subst hfront
      obtain rfl := List.append_cancel_left hl
      rw [each.unique each', last.unique last']
  | named name inner =>
      cases h with | named body =>
      cases k with | named body' => rw [body.unique body']
termination_by sizeOf p

theorem FitsEach.unique {ps s t vs} (h : FitsEach ps s vs) (k : FitsEach ps t vs) : s = t := by
  cases ps with
  | nil => cases h; cases k; rfl
  | cons p ps =>
      cases h with | cons first others =>
      cases k with | cons first' others' => rw [first.unique first', others.unique others']
termination_by sizeOf ps
end

/-- Holds of what passes from a list to its items and to its ends. -/
structure Hereditary (P : Value → Prop) : Prop where
  item : ∀ {items v}, P (.list items) → v ∈ items → P v
  ending : ∀ {front rest}, P (.list (front ++ rest)) → P (.list rest)

mutual
/-- What passes to the parts of a value passes to all that is bound in it. -/
theorem Fits.bound {P : Value → Prop} (parts : Hereditary P) {p s v} (h : Fits p s v)
    (holds : P v) : ∀ entry ∈ s, P entry.2 := by
  cases h with
  | wildcard | bool | number | str => nofun
  | ident name => simpa using holds
  | array each => exact each.bound parts fun v => parts.item holds
  | cons each last =>
      have front := each.bound parts fun v member =>
        parts.item holds (List.mem_append_left _ member)
      have back := last.bound parts (parts.ending holds)
      rw [List.forall_mem_append]
      exact ⟨front, back⟩
  | named body =>
      rw [List.forall_mem_cons]
      exact ⟨holds, body.bound parts holds⟩

theorem FitsEach.bound {P : Value → Prop} (parts : Hereditary P) {ps s vs} (h : FitsEach ps s vs)
    (holds : ∀ v ∈ vs, P v) : ∀ entry ∈ s, P entry.2 := by
  cases h with
  | nil => nofun
  | cons first others =>
      obtain ⟨one, more⟩ := List.forall_mem_cons.mp holds
      rw [List.forall_mem_append]
      exact ⟨first.bound parts one, others.bound parts more⟩
end

end Destructure.Pattern
