import Destructure.Bindings
import Mathlib.Data.List.Nodup

/-! # Merging bindings

Merging succeeds exactly on sets of bindings that share no name, and then loses and invents nothing.
-/

namespace Destructure.Bindings

theorem contains_iff {b : Bindings} {name : String} : b.contains name = true ↔ name ∈ b.names := by
  simp only [contains, get?, List.lookup_isSome_iff, names, List.mem_map, beq_iff_eq]
  constructor
  · rintro ⟨entry, member, rfl⟩
    exact ⟨entry, member, rfl⟩
  · rintro ⟨entry, member, rfl⟩
    exact ⟨entry, member, rfl⟩

theorem mem_shared {b c : Bindings} {name : String} :
    name ∈ b.shared c ↔ name ∈ c.names ∧ name ∈ b.names := by
  rw [shared, List.mem_filter, contains_iff]

theorem merge_cases (b c : Bindings) :
    (b.merge c = .ok ⟨b.entries ++ c.entries⟩ ∧ b.names.Disjoint c.names) ∨
      (b.merge c = .error (.duplicateBinding (b.shared c)) ∧ b.shared c ≠ []) := by
  unfold merge
  split
  · rename_i none_shared
    refine .inl ⟨rfl, ?_⟩
    intro name inLeft inRight
    have := mem_shared.mpr ⟨inRight, inLeft⟩
    rw [List.isEmpty_iff.mp none_shared] at this
    exact List.not_mem_nil this
  · rename_i some_shared
    exact .inr ⟨rfl, fun empty => some_shared (List.isEmpty_iff.mpr empty)⟩

/-- Where no name occurs twice, looking a name up finds whatever it is bound to. -/
theorem get?_of_mem {b : Bindings} (distinct : b.names.Nodup) {name : String} {value : Value}
    (member : (name, value) ∈ b.entries) : b.get? name = some value := by
  obtain ⟨before, after, split⟩ := List.append_of_mem member
  rw [names, split, List.map_append, List.nodup_append'] at distinct
  obtain ⟨-, -, disjoint⟩ := distinct
  rw [get?, List.lookup_eq_some_iff]
  refine ⟨before, after, split, ?_⟩
  intro entry inFront
  rw [bne_iff_ne]
  rintro rfl
  exact disjoint (List.mem_map_of_mem inFront) List.mem_cons_self

end Destructure.Bindings
