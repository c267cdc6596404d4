import Destructure.Proofs.Number.Position
import Destructure.Value
import Mathlib.Data.List.Forall2

/-! # Equality of values

Lists are equal item by item.  Equality is symmetric and transitive at every nesting, since it is so
for the numbers at the leaves.
-/

namespace Destructure.Value

theorem beqItems_iff {vs ws : List Value} :
    beqItems vs ws = true ↔ List.Forall₂ (fun v w => (v == w) = true) vs ws := by
  induction vs generalizing ws with
  | nil => cases ws <;> simp [beqItems]
  | cons v vs ih =>
      cases ws with
      | nil => simp [beqItems]
      | cons w ws =>
          simp only [beqItems, Bool.and_eq_true, ih, List.forall₂_cons]
          exact Iff.rfl

/-- A list is equal to lists alone, item by item. -/
theorem list_beq_iff {vs : List Value} {w : Value} :
    (list vs == w) = true ↔
      ∃ ws, w = list ws ∧ List.Forall₂ (fun v w => (v == w) = true) vs ws := by
  constructor
  · intro same
    cases w with
    | list ws => exact ⟨ws, rfl, beqItems_iff.mp same⟩
    | null | bool | number | str => cases same
  · rintro ⟨ws, rfl, each⟩
    exact beqItems_iff.mpr each

mutual
theorem beq_symm {v w : Value} (same : (v == w) = true) : (w == v) = true := by
  cases v with
  | null =>
      cases w with
      | null => rfl
      | bool | number | str | list => cases same
  | bool a =>
      cases w with
      | bool b => exact BEq.symm (α := Bool) same
      | null | number | str | list => cases same
  | number m =>
      cases w with
      | number n => exact BEq.symm (α := Number) same
      | null | bool | str | list => cases same
  | str s =>
      cases w with
      | str t => exact BEq.symm (α := String) same
      | null | bool | number | list => cases same
  | list vs =>
      obtain ⟨ws, rfl, each⟩ := list_beq_iff.mp same
      exact beqItems_iff.mpr (forall₂_beq_symm each)
termination_by sizeOf v

theorem forall₂_beq_symm {vs ws : List Value}
    (each : List.Forall₂ (fun v w => (v == w) = true) vs ws) :
    List.Forall₂ (fun v w => (v == w) = true) ws vs := by
  cases each with
  | nil => exact .nil
  | cons first others => exact .cons (beq_symm first) (forall₂_beq_symm others)
termination_by sizeOf vs
end

mutual
theorem beq_trans {u v w : Value} (left : (u == v) = true) (right : (v == w) = true) :
    (u == w) = true := by
  cases u with
  | null =>
      cases v with
      | null => exact right
      | bool | number | str | list => cases left
  | bool a =>
      cases v with
      | bool b =>
          obtain rfl : a = b := eq_of_beq left
          exact right
      | null | number | str | list => cases left
  | number m =>
      cases v with
      | number n =>
          cases w with
          | number k => exact BEq.trans (α := Number) left right
          | null | bool | str | list => cases right
      | null | bool | str | list => cases left
  | str s =>
      cases v with
      | str t =>
          obtain rfl : s = t := eq_of_beq left
          exact right
      | null | bool | number | list => cases left
  | list us =>
      obtain ⟨vs, rfl, each⟩ := list_beq_iff.mp left
      obtain ⟨ws, rfl, each'⟩ := list_beq_iff.mp right
      exact beqItems_iff.mpr (forall₂_beq_trans each each')
termination_by sizeOf u

theorem forall₂_beq_trans {us vs ws : List Value}
    (left : List.Forall₂ (fun v w => (v == w) = true) us vs)
    (right : List.Forall₂ (fun v w => (v == w) = true) vs ws) :
    List.Forall₂ (fun v w => (v == w) = true) us ws := by
  cases left with
  | nil => exact right
  | cons first others =>
      cases right with
      | cons first' others' =>
          exact .cons (beq_trans first first') (forall₂_beq_trans others others')
termination_by sizeOf us
end

instance : PartialEquivBEq Value where
  symm := beq_symm
  trans := beq_trans

end Destructure.Value
