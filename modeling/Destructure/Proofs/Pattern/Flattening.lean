import Destructure.Proofs.Pattern.Matching

/-! # Cons groups flatten

A cons group whose tail is a cons group again fits the same values, in the same ways, as one group with
the heads of both, and so does an array in the place of the tail.  Matching goes about the two forms
differently: it looks at the length of the list at other moments and merges the bindings in another
order.  None of this shows as long as no name is bound twice.
-/

namespace Destructure.Pattern

theorem FitsEach.append {ps qs s u vs ws} (first : FitsEach ps s vs) (second : FitsEach qs u ws) :
    FitsEach (ps ++ qs) (s ++ u) (vs ++ ws) := by
  induction ps generalizing s vs with
  | nil =>
      cases first
      exact second
  | cons p ps ih =>
      cases first with
      | cons fit others =>
          have joined := FitsEach.cons fit (ih others)
          rwa [← List.append_assoc] at joined

theorem fitsEach_append_iff {ps qs s vs} : FitsEach (ps ++ qs) s vs ↔
    ∃ f b front rest, FitsEach ps f front ∧ FitsEach qs b rest ∧ s = f ++ b ∧ vs = front ++ rest := by
  constructor
  · intro each
    induction ps generalizing s vs with
    | nil => exact ⟨[], s, [], vs, .nil, each, rfl, rfl⟩
    | cons p ps ih =>
        cases each with
        | cons fit others =>
            obtain ⟨f, b, front, rest, first, second, rfl, rfl⟩ := ih others
            exact ⟨_, b, _, rest, .cons fit first, second, (List.append_assoc _ _ _).symm, rfl⟩
  · rintro ⟨f, b, front, rest, first, second, rfl, rfl⟩
    exact first.append second

/-- A cons group fits a list that falls into values for its heads and a list for its tail. -/
theorem fits_cons_iff_append {heads tail s v} : Fits (.cons heads tail) s v ↔
    ∃ f b front rest, FitsEach heads f front ∧ Fits tail b (.list rest) ∧ s = f ++ b ∧
      v = .list (front ++ rest) := by
  constructor
  · intro fit
    cases fit with
    | cons each last => exact ⟨_, _, _, _, each, last, rfl, rfl⟩
  · rintro ⟨f, b, front, rest, each, last, rfl, rfl⟩
    exact .cons each last

/-- The patterns have the same binders, and every value fits both in the same ways. -/
structure Equivalent (p q : Pattern) : Prop where
  binders : p.binders = q.binders
  fits : ∀ s v, Fits p s v ↔ Fits q s v

theorem bindersEach_append (ps qs : List Pattern) :
    bindersEach (ps ++ qs) = bindersEach ps ++ bindersEach qs := by
  induction ps with
  | nil => rfl
  | cons p ps ih => rw [List.cons_append, bindersEach, bindersEach, ih, List.append_assoc]

theorem equivalent_cons_cons (hs ks : List Pattern) (t : Pattern) :
    Equivalent (.cons (hs ++ ks) t) (.cons hs (.cons ks t)) where
  binders := by
    simp only [binders, bindersEach_append, List.append_assoc]
  fits s v := by
    constructor
    · intro fit
      obtain ⟨f, b, front, rest, each, last, rfl, rfl⟩ := fits_cons_iff_append.mp fit
      obtain ⟨f₁, f₂, front₁, front₂, first, second, rfl, rfl⟩ := fitsEach_append_iff.mp each
      have nested := Fits.cons first (.cons second last)
      rwa [← List.append_assoc, ← List.append_assoc] at nested
    · intro fit
      obtain ⟨f₁, b₁, front₁, rest₁, first, tail, rfl, rfl⟩ := fits_cons_iff_append.mp fit
      obtain ⟨f₂, b, front₂, rest, second, last, rfl, same⟩ := fits_cons_iff_append.mp tail
      obtain rfl := Value.list.inj same
      have flat := Fits.cons (first.append second) last
      rwa [List.append_assoc, List.append_assoc] at flat

theorem equivalent_array_cons (hs ps : List Pattern) :
    Equivalent (.array (hs ++ ps)) (.cons hs (.array ps)) where
  binders := by
    simp only [binders, bindersEach_append]
  fits s v := by
    constructor
    · intro fit
      cases fit with
      | array each =>
          obtain ⟨f, b, front, rest, first, second, rfl, rfl⟩ := fitsEach_append_iff.mp each
          exact .cons first (.array second)
    · intro fit
      obtain ⟨f, b, front, rest, first, tail, rfl, rfl⟩ := fits_cons_iff_append.mp fit
      exact .array (first.append (fits_array_iff.mp tail))

/-- The value does not match, be it that it does not fit or that a name is bound twice. -/
def Unmatched (p : Pattern) (v : Value) : Prop :=
  p.destructure v = .ok none ∨ ∃ e, p.destructure v = .error e ∧ Repeats p.binders e

theorem unmatched_of_repeated {p : Pattern} (repeated : ¬ p.binders.Nodup) (v : Value) :
    p.Unmatched v := by
  by_cases fits : ∃ s, Fits p s v
  · obtain ⟨s, fit⟩ := fits
    obtain ⟨distinct, -⟩ | failed := destructure_of_fits fit
    · exact absurd distinct repeated
    · exact .inr failed
  · exact destructure_of_not_fits (not_exists.mp fits)

/-- The two patterns have the same binders.  If no name is bound twice they have the same outcome on
the value, bindings or a mismatch, and otherwise neither of them matches it. -/
structure MatchAlike (p q : Pattern) (v : Value) : Prop where
  binders : p.binders = q.binders
  distinct : p.binders.Nodup →
    ∃ outcome, p.destructure v = .ok outcome ∧ q.destructure v = .ok outcome
  repeated : ¬ p.binders.Nodup → p.Unmatched v ∧ q.Unmatched v

theorem Equivalent.matchAlike {p q : Pattern} (same : Equivalent p q) (v : Value) :
    MatchAlike p q v where
  binders := same.binders
  distinct names := by
    have otherNames : q.binders.Nodup := same.binders ▸ names
    -- without a repeated binder fitting alone decides, in whatever order the bindings are merged
    by_cases fits : ∃ s, Fits p s v
    · obtain ⟨s, fit⟩ := fits
      have otherFit := (same.fits s v).mp fit
      exact ⟨_, destructure_of_fits_distinct names fit,
        destructure_of_fits_distinct otherNames otherFit⟩
    · have unfit : ∀ s, ¬ Fits p s v := not_exists.mp fits
      have otherUnfit : ∀ s, ¬ Fits q s v := fun s fit => unfit s ((same.fits s v).mpr fit)
      exact ⟨_, destructure_of_not_fits_distinct names unfit,
        destructure_of_not_fits_distinct otherNames otherUnfit⟩
  repeated names :=
    ⟨unmatched_of_repeated names v, unmatched_of_repeated (same.binders ▸ names) v⟩

/-- The heads of a cons group that stands as a tail, and the items of an array that does, may as well
stand in the outer group. -/
theorem destructure_flattened (hs ks ps : List Pattern) (t : Pattern) (v : Value) :
    MatchAlike (.cons (hs ++ ks) t) (.cons hs (.cons ks t)) v ∧
      MatchAlike (.array (hs ++ ps)) (.cons hs (.array ps)) v :=
  ⟨(equivalent_cons_cons hs ks t).matchAlike v, (equivalent_array_cons hs ps).matchAlike v⟩

/-- A repeated name may come to light in one form and stay unnoticed in the other. -/
example :
    (cons ([ident "a"] ++ [ident "a", bool true]) wildcard).destructure
        (.list [.null, .null, .null]) = .error (.duplicateBinding ["a"]) ∧
      (cons [ident "a"] (cons [ident "a", bool true] wildcard)).destructure
        (.list [.null, .null, .null]) = .ok none := by
  constructor <;> rfl

end Destructure.Pattern
