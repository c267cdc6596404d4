import Mathlib.Data.List.Forall2

/-! # Runs of steps that may fail

The result of a sequence of steps in terms of the results of the steps.  A traversal succeeds if
every step does, and fails as the first of its steps that fails.
-/

namespace Destructure

variable {α β ε : Type}

theorem bind_eq_ok_iff {x : Except ε α} {f : α → Except ε β} {y : β} :
    (x >>= f) = .ok y ↔ ∃ a, x = .ok a ∧ f a = .ok y := by
  cases x with
  | error e => simp [bind, Except.bind]
  | ok a => simp [bind, Except.bind]

theorem bind_eq_error_iff {x : Except ε α} {f : α → Except ε β} {e : ε} :
    (x >>= f) = .error e ↔ x = .error e ∨ ∃ a, x = .ok a ∧ f a = .error e := by
  cases x with
  | error e => simp [bind, Except.bind]
  | ok a => simp [bind, Except.bind]

theorem eq_error_of_map_eq_error {x : Except ε α} (f : α → β) {e : ε} (h : x.map f = .error e) :
    x = .error e := by
  cases x with
  | error e' =>
      cases h
      rfl
  | ok a => cases h

theorem eq_none_of_map_eq_none {x : Except ε (Option α)} (f : α → β)
    (h : x.map (Option.map f) = .ok none) : x = .ok none := by
  cases x with
  | error e => cases h
  | ok outcome =>
      cases outcome with
      | none => rfl
      | some a => cases h

theorem exists_of_map_eq_some {x : Except ε (Option α)} (f : α → β) {y : β}
    (h : x.map (Option.map f) = .ok (some y)) : ∃ a, x = .ok (some a) ∧ f a = y := by
  cases x with
  | error e => cases h
  | ok outcome =>
      cases outcome with
      | none => cases h
      | some a =>
          cases h
          exact ⟨a, rfl, rfl⟩

theorem mapM_eq_ok_iff {f : α → Except ε β} {xs : List α} {ys : List β} :
    xs.mapM f = .ok ys ↔ List.Forall₂ (fun x y => f x = .ok y) xs ys := by
  induction xs generalizing ys with
  | nil =>
      rw [List.mapM_nil, List.forall₂_nil_left_iff]
      exact ⟨fun h => by cases h; rfl, fun h => by rw [h]; rfl⟩
  | cons x xs ih =>
      simp only [List.mapM_cons, List.forall₂_cons_left_iff, bind_eq_ok_iff, ih]
      constructor
      · rintro ⟨y, first, rest, others, ⟨⟩⟩
        exact ⟨y, rest, first, others, rfl⟩
      · rintro ⟨y, rest, first, others, rfl⟩
        exact ⟨y, first, rest, others, rfl⟩

/-- A traversal ends at its first failing step. -/
theorem mapM_eq_error_iff {f : α → Except ε β} {xs : List α} {e : ε} : xs.mapM f = .error e ↔
    ∃ before x after, xs = before ++ x :: after ∧ (∀ y ∈ before, ∃ z, f y = .ok z) ∧
      f x = .error e := by
  induction xs with
  | nil =>
      constructor
      · intro h
        cases h
      · rintro ⟨before, x, after, split, -⟩
        simp at split
  | cons x xs ih =>
      simp only [List.mapM_cons, bind_eq_error_iff, ih]
      constructor
      · rintro (first | ⟨y, first, ⟨before, z, after, rfl, passed, failed⟩ | ⟨ys, -, ⟨⟩⟩⟩)
        · exact ⟨[], x, xs, rfl, nofun, first⟩
        · refine ⟨x :: before, z, after, rfl, ?_, failed⟩
          exact List.forall_mem_cons.mpr ⟨⟨y, first⟩, passed⟩
      · rintro ⟨before, z, after, split, passed, failed⟩
        cases before with
        | nil =>
            obtain ⟨rfl, rfl⟩ := List.cons.inj split
            exact .inl failed
        | cons first before =>
            obtain ⟨rfl, rfl⟩ := List.cons.inj split
            obtain ⟨⟨y, accepted⟩, passed⟩ := List.forall_mem_cons.mp passed
            exact .inr ⟨y, accepted, .inl ⟨before, z, after, rfl, passed, failed⟩⟩

theorem mapM_congr {f g : α → Except ε β} {xs : List α} (same : ∀ x ∈ xs, f x = g x) :
    xs.mapM f = xs.mapM g := by
  induction xs with
  | nil => rfl
  | cons x xs ih =>
      rw [List.mapM_cons, List.mapM_cons, same x List.mem_cons_self,
        ih fun y member => same y (List.mem_cons_of_mem _ member)]

end Destructure
