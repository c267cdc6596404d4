import Destructure.Pattern.Matching
import Destructure.Proofs.Bindings
import Destructure.Proofs.Value

/-! # Matching respects equality

Equal patterns make the same of equal values: both do not fit, or both bind the same names twice, or
both give the same names with equal values.  A number may stand as an integer on one side and as a
floating point number on the other, anywhere in the patterns and in the values.
-/

namespace Destructure

namespace Bindings

/-- Equal bindings have the same names in the same order, with equal values. -/
theorem beq_iff {b c : Bindings} : (b == c) = true ↔
    List.Forall₂ (fun x y => x.1 = y.1 ∧ (x.2 == y.2) = true) b.entries c.entries := by
  obtain ⟨xs⟩ := b
  obtain ⟨ys⟩ := c
  change (xs == ys) = true ↔ List.Forall₂ _ xs ys
  induction xs generalizing ys with
  | nil => cases ys <;> simp
  | cons x xs ih =>
      cases ys with
      | nil => simp
      | cons y ys =>
          rw [List.cons_beq_cons, Bool.and_eq_true, ih, List.forall₂_cons]
          change (x.1 == y.1 && x.2 == y.2) = true ∧ _ ↔ _
          simp only [Bool.and_eq_true, beq_iff_eq]

theorem names_eq_of_beq {b c : Bindings} (same : (b == c) = true) : b.names = c.names := by
  have each := beq_iff.mp same
  rw [names, names]
  generalize b.entries = xs, c.entries = ys at each ⊢
  induction each with
  | nil => rfl
  | cons first _ ih => rw [List.map_cons, List.map_cons, first.1, ih]

theorem values_of_beq {b c : Bindings} (same : (b == c) = true) :
    List.Forall₂ (fun v w => (v == w) = true) b.values c.values := by
  rw [values, values, List.forall₂_map_left_iff, List.forall₂_map_right_iff]
  exact (beq_iff.mp same).imp fun _ _ => And.right

/-- Which names clash is up to the names alone. -/
theorem merge_congr {b b' c c' : Bindings} (left : (b == b') = true) (right : (c == c') = true) :
    (∃ d d', b.merge c = .ok d ∧ b'.merge c' = .ok d' ∧ (d == d') = true) ∨
      ∃ names, b.merge c = .error (.duplicateBinding names) ∧
        b'.merge c' = .error (.duplicateBinding names) := by
  have contained : b.contains = b'.contains := by
    funext name
    rw [Bool.eq_iff_iff, contains_iff, contains_iff, names_eq_of_beq left]
  have shared : b.shared c = b'.shared c' := by
    rw [Bindings.shared, Bindings.shared, contained, names_eq_of_beq right]
  rw [merge, merge, shared]
  split
  · refine .inl ⟨_, _, rfl, rfl, beq_iff.mpr ?_⟩
    exact List.rel_append (beq_iff.mp left) (beq_iff.mp right)
  · exact .inr ⟨_, rfl, rfl⟩

end Bindings

namespace Pattern

/-- One outcome of a match, up to the value of numbers. -/
inductive SameOutcome :
    Except MatchError (Option Bindings) → Except MatchError (Option Bindings) → Prop where
  | mismatch : SameOutcome (.ok none) (.ok none)
  | repeated (names : List String) :
      SameOutcome (.error (.duplicateBinding names)) (.error (.duplicateBinding names))
  | fit {b c : Bindings} (same : (b == c) = true) : SameOutcome (.ok (some b)) (.ok (some c))

namespace SameOutcome

theorem literal {l l' v w : Value} (literals : (l == l') = true) (values : (v == w) = true) :
    SameOutcome (.ok (matchLiteral l v)) (.ok (matchLiteral l' w)) := by
  have same : (v == l) = (w == l') := by
    rw [BEq.congr_left values, BEq.congr_right literals]
  rw [matchLiteral, matchLiteral, same]
  split
  · exact .fit rfl
  · exact .mismatch

theorem merge {b b' c c' : Bindings} (left : (b == b') = true) (right : (c == c') = true) :
    SameOutcome ((b.merge c).map some) ((b'.merge c').map some) := by
  obtain ⟨d, d', merged, merged', same⟩ | ⟨names, refused, refused'⟩ :=
    Bindings.merge_congr left right
  · rw [merged, merged']
    exact .fit same
  · rw [refused, refused']
    exact .repeated names

/-- What follows a first part, if that part gives bindings. -/
theorem andThen {first first' result result' : Except MatchError (Option Bindings)}
    {next next' : Bindings → Except MatchError (Option Bindings)}
    (defined : (match first with
      | .error e => .error e
      | .ok none => .ok none
      | .ok (some b) => next b) = result)
    (defined' : (match first' with
      | .error e => .error e
      | .ok none => .ok none
      | .ok (some b) => next' b) = result')
    (agree : SameOutcome first first')
    (step : ∀ b b', (b == b') = true → SameOutcome (next b) (next' b')) :
    SameOutcome result result' := by
  subst defined
  subst defined'
  cases agree with
  | mismatch => exact .mismatch
  | repeated names => exact .repeated names
  | fit same => exact step _ _ same

end SameOutcome

theorem beqEach_iff {ps qs : List Pattern} :
    beqEach ps qs = true ↔ List.Forall₂ (fun p q => (p == q) = true) ps qs := by
  induction ps generalizing qs with
  | nil => cases qs <;> simp [beqEach]
  | cons p ps ih =>
      cases qs with
      | nil => simp [beqEach]
      | cons q qs =>
          simp only [beqEach, Bool.and_eq_true, ih, List.forall₂_cons]
          exact Iff.rfl

/-- A list faces an equal list, and anything else faces no list. -/
theorem lists_or_not {v w : Value} (same : (v == w) = true) :
    (∃ vs ws, v = .list vs ∧ w = .list ws ∧
        List.Forall₂ (fun v w => (v == w) = true) vs ws) ∨
      (∀ vs, v ≠ .list vs) ∧ ∀ ws, w ≠ .list ws := by
  cases v with
  | list vs =>
      obtain ⟨ws, rfl, each⟩ := Value.list_beq_iff.mp same
      exact .inl ⟨vs, ws, rfl, rfl, each⟩
  | null | bool | number | str =>
      refine .inr ⟨fun vs => nofun, ?_⟩
      rintro ws rfl
      cases same

theorem destructure_array_of_not_list {v : Value} (scalar : ∀ vs, v ≠ .list vs)
    (items : List Pattern) : (array items).destructure v = .ok none := by
  cases v with
  | list vs => exact absurd rfl (scalar vs)
  | null | bool | number | str => rfl

theorem destructure_cons_of_not_list {v : Value} (scalar : ∀ vs, v ≠ .list vs)
    (heads : List Pattern) (tail : Pattern) : (cons heads tail).destructure v = .ok none := by
  cases v with
  | list vs => exact absurd rfl (scalar vs)
  | null | bool | number | str => rfl

mutual
theorem destructure_agrees {p q : Pattern} {v w : Value} (patterns : (p == q) = true)
    (values : (v == w) = true) : SameOutcome (p.destructure v) (q.destructure w) := by
  cases p with
  | wildcard =>
      cases q with
      | wildcard => exact .fit rfl
      | ident | bool | number | str | array | cons | named => cases patterns
  | ident name =>
      cases q with
      | ident name' =>
          obtain rfl : name = name' := eq_of_beq patterns
          exact .fit (Bindings.beq_iff.mpr (.cons ⟨rfl, values⟩ .nil))
      | wildcard | bool | number | str | array | cons | named => cases patterns
  | bool a =>
      cases q with
      | bool b =>
          simp only [destructure]
          exact .literal patterns values
      | wildcard | ident | number | str | array | cons | named => cases patterns
  | number m =>
      cases q with
      | number n =>
          simp only [destructure]
          exact .literal patterns values
      | wildcard | ident | bool | str | array | cons | named => cases patterns
  | str s =>
      cases q with
      | str t =>
          simp only [destructure]
          exact .literal patterns values
      | wildcard | ident | bool | number | array | cons | named => cases patterns
  | array ps =>
      cases q with
      | array qs =>
          have items := beqEach_iff.mp patterns
          obtain ⟨vs, ws, rfl, rfl, each⟩ | ⟨scalar, scalar'⟩ := lists_or_not values
          · simp only [destructure, items.length_eq, each.length_eq]
            split
            · exact destructureEach_agrees items each rfl
            · exact .mismatch
          · rw [destructure_array_of_not_list scalar, destructure_array_of_not_list scalar']
            exact .mismatch
      | wildcard | ident | bool | number | str | cons | named => cases patterns
  | cons heads tail =>
      cases q with
      | cons heads' tail' =>
          obtain ⟨sameHeads, sameTail⟩ := Bool.and_eq_true_iff.mp patterns
          have items := beqEach_iff.mp sameHeads
          obtain ⟨vs, ws, rfl, rfl, each⟩ | ⟨scalar, scalar'⟩ := lists_or_not values
          · simp only [destructure, items.length_eq, each.length_eq]
            split
            · apply SameOutcome.andThen rfl rfl
                (destructureEach_agrees items (List.forall₂_take _ each) rfl)
              intro front front' sameFront
              apply SameOutcome.andThen rfl rfl (destructure_agrees sameTail
                (Value.list_beq_iff.mpr ⟨_, rfl, List.forall₂_drop _ each⟩))
              intro back back' sameBack
              exact .merge sameFront sameBack
            · exact .mismatch
          · rw [destructure_cons_of_not_list scalar, destructure_cons_of_not_list scalar']
            exact .mismatch
      | wildcard | ident | bool | number | str | array | named => cases patterns
  | named name inner =>
      cases q with
      | named name' inner' =>
          obtain ⟨sameName, sameInner⟩ := Bool.and_eq_true_iff.mp patterns
          obtain rfl : name = name' := eq_of_beq sameName
          simp only [destructure]
          apply SameOutcome.andThen rfl rfl (destructure_agrees sameInner values)
          intro bound bound' same
          exact .merge (Bindings.beq_iff.mpr (.cons ⟨rfl, values⟩ .nil)) same
      | wildcard | ident | bool | number | str | array | cons => cases patterns
termination_by sizeOf p

theorem destructureEach_agrees {ps qs : List Pattern} {vs ws : List Value} {b c : Bindings}
    (patterns : List.Forall₂ (fun p q => (p == q) = true) ps qs)
    (values : List.Forall₂ (fun v w => (v == w) = true) vs ws) (bound : (b == c) = true) :
    SameOutcome (destructureEach ps vs b) (destructureEach qs ws c) := by
  cases patterns with
  | nil =>
      simp only [destructureEach]
      exact .fit bound
  | cons pattern patterns =>
      cases values with
      | nil =>
          simp only [destructureEach]
          exact .fit bound
      | cons value values =>
          simp only [destructureEach]
          apply SameOutcome.andThen rfl rfl (destructure_agrees pattern value)
          intro more more' same
          obtain ⟨d, d', merged, merged', both⟩ | ⟨names, refused, refused'⟩ :=
            Bindings.merge_congr bound same
          · rw [merged, merged']
            exact destructureEach_agrees patterns values both
          · rw [refused, refused']
            exact .repeated names
termination_by sizeOf ps
end

/-- Matching respects equality on both sides: equal patterns either both mismatch, or both report the
same repeated names, or both give the same names in the same order with equal values. -/
theorem destructure_congr {p q : Pattern} {v w : Value} (patterns : (p == q) = true)
    (values : (v == w) = true) :
    (p.destructure v = .ok none ∧ q.destructure w = .ok none) ∨
      (∃ names, p.destructure v = .error (.duplicateBinding names) ∧
        q.destructure w = .error (.duplicateBinding names)) ∨
      ∃ b c, p.destructure v = .ok (some b) ∧ q.destructure w = .ok (some c) ∧ (b == c) = true ∧
        b.names = c.names ∧ List.Forall₂ (fun v w => (v == w) = true) b.values c.values := by
  have agree := destructure_agrees patterns values
  generalize p.destructure v = x, q.destructure w = y at agree
  cases agree with
  | mismatch => exact .inl ⟨rfl, rfl⟩
  | repeated names => exact .inr (.inl ⟨names, rfl, rfl⟩)
  | fit same =>
      exact .inr (.inr ⟨_, _, rfl, rfl, same, Bindings.names_eq_of_beq same,
        Bindings.values_of_beq same⟩)

/-- At `2 ^ 53`, where the integers begin to outrun the floating point numbers, each kind is matched
by a literal of the other. -/
theorem destructure_congr_mixed_kinds :
    (cons [number (.int 9007199254740992)] (ident "xs") ==
        cons [number (.float (.ofInt 9007199254740992))] (ident "xs")) = true ∧
      (Value.list [.number (.float (.ofInt 9007199254740992)), .number (.int 1)] ==
        Value.list [.number (.int 9007199254740992), .number (.float (.ofInt 1))]) = true ∧
      ∃ b c, (cons [number (.int 9007199254740992)] (ident "xs")).destructure
          (.list [.number (.float (.ofInt 9007199254740992)), .number (.int 1)]) = .ok (some b) ∧
        (cons [number (.float (.ofInt 9007199254740992))] (ident "xs")).destructure
          (.list [.number (.int 9007199254740992), .number (.float (.ofInt 1))]) = .ok (some c) ∧
        (b == c) = true := by
  have patterns : (cons [number (.int 9007199254740992)] (ident "xs") ==
      cons [number (.float (.ofInt 9007199254740992))] (ident "xs")) = true := by
    decide +kernel
  have values : (Value.list [.number (.float (.ofInt 9007199254740992)), .number (.int 1)] ==
      Value.list [.number (.int 9007199254740992), .number (.float (.ofInt 1))]) = true := by
    decide +kernel
  have head : matchLiteral (.number (.int 9007199254740992))
      (.number (.float (.ofInt 9007199254740992))) = some .empty :=
    if_pos (by decide +kernel)
  have fits : (cons [number (.int 9007199254740992)] (ident "xs")).destructure
      (.list [.number (.float (.ofInt 9007199254740992)), .number (.int 1)]) =
      .ok (some (.single "xs" (.list [.number (.int 1)]))) := by
    simp only [destructure, destructureEach, List.length_cons, List.length_nil, List.take, List.drop,
      head]
    rfl
  refine ⟨patterns, values, ?_⟩
  obtain ⟨mismatch, -⟩ | ⟨names, repeated, -⟩ | ⟨b, c, left, right, same, -⟩ :=
    destructure_congr patterns values
  · rw [fits] at mismatch
    cases mismatch
  · rw [fits] at repeated
    cases repeated
  · exact ⟨b, c, left, right, same⟩

end Pattern

end Destructure
