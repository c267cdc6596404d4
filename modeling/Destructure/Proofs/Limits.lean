import Destructure.Proofs.Dispatcher

/-! # Limits only refuse

A run under tighter limits takes the steps of a run under looser ones until it goes past a limit,
and that limit is then its result.  Every other result, be it a pattern, a match, a mismatch or an
error, is the one that the looser limits give.
-/

namespace Destructure.Limits

/-- A bound that admits no more than another one.  A missing bound admits everything. -/
def Tighter (bound other : Option Nat) : Prop :=
  ∀ n, other = some n → ∃ k, bound = some k ∧ k ≤ n

/-- Limits that admit no more than others, neither in depth nor in length. -/
instance : LE Limits :=
  ⟨fun tight loose =>
    Tighter tight.maxDepth loose.maxDepth ∧ Tighter tight.maxLength loose.maxLength⟩

/-- The errors that report a limit. -/
def Refuses (limits : Limits) : MatchError → Prop
  | .depthLimit bound => limits.maxDepth = some bound
  | .lengthLimit bound _ => limits.maxLength = some bound
  | .invalidPattern _ | .duplicateBinding _ | .nonExhaustive => False

/-- The first result is the second one, unless it reports one of the limits. -/
def Follows {α : Type} (limits : Limits) (tight loose : Except MatchError α) : Prop :=
  tight = loose ∨ ∃ e, tight = .error e ∧ limits.Refuses e

namespace Follows

variable {limits : Limits} {α β : Type}

theorem refl (x : Except MatchError α) : limits.Follows x x :=
  .inl rfl

theorem bind {x y : Except MatchError α} {f g : α → Except MatchError β}
    (h : limits.Follows x y) (next : ∀ a, limits.Follows (f a) (g a)) :
    limits.Follows (x >>= f) (y >>= g) := by
  obtain rfl | ⟨e, rfl, refuses⟩ := h
  · cases x with
    | error e => exact .refl _
    | ok a => exact next a
  · exact .inr ⟨e, rfl, refuses⟩

theorem mapM {f g : α → Except MatchError β} {xs : List α}
    (each : ∀ x ∈ xs, limits.Follows (f x) (g x)) :
    limits.Follows (xs.mapM f) (xs.mapM g) := by
  induction xs with
  | nil => exact .refl _
  | cons x xs ih =>
      simp only [List.mapM_cons]
      apply (each x List.mem_cons_self).bind
      intro y
      apply (ih fun z member => each z (List.mem_cons_of_mem _ member)).bind
      intro ys
      exact .refl _

end Follows

/-- What a tighter bound admits, a looser one admits. -/
theorem Tighter.within {bound other : Option Nat} {n : Nat} (tighter : Tighter bound other)
    (within : bound.filter (· < n) = none) : other.filter (· < n) = none := by
  cases other with
  | none => rfl
  | some m =>
      obtain ⟨k, rfl, le⟩ := tighter m rfl
      simp only [Option.filter_eq_none_iff, Option.some.injEq, decide_eq_true_eq,
        forall_eq'] at within ⊢
      omega

variable {tight loose : Limits}

/-- Within the limit both runs find the same shape, and their parts are read in the same order. -/
theorem parseAt_follows (tighter : tight ≤ loose) (depth : Nat) (text : List Char) :
    tight.Follows (Pattern.parseAt tight.maxDepth depth text)
      (Pattern.parseAt loose.maxDepth depth text) := by
  induction text using Pattern.partsInduction generalizing depth with
  | level text ih =>
      rw [Pattern.parseAt_eq tight.maxDepth, Pattern.parseAt_eq loose.maxDepth]
      cases exceeds : Pattern.exceeded? tight.maxDepth depth with
      | some bound => exact .inr ⟨_, rfl, Pattern.eq_of_exceeded? exceeds⟩
      | none =>
          have within : Pattern.exceeded? loose.maxDepth depth = none := tighter.1.within exceeds
          rw [within]
          cases found : Shape.ofText? (Text.trim text) with
          | none => exact .refl _
          | some s =>
              have parts : ∀ part ∈ s.parts, tight.Follows
                  (Pattern.parseAt tight.maxDepth (depth + 1) part)
                  (Pattern.parseAt loose.maxDepth (depth + 1) part) :=
                fun part member => ih s part found member (depth + 1)
              cases s with
              | atom a => exact .refl _
              | array items =>
                  apply (Follows.mapM parts).bind
                  intro ps
                  exact .refl _
              | cons heads tail =>
                  apply (parts tail (List.mem_append_right _ List.mem_cons_self)).bind
                  intro p
                  apply (Follows.mapM fun head member =>
                    parts head (List.mem_append_left _ member)).bind
                  intro ps
                  exact .refl _
              | named name inner =>
                  apply (parts inner List.mem_cons_self).bind
                  intro p
                  exact .refl _

theorem compile_follows (tighter : tight ≤ loose) (text : String) :
    tight.Follows (tight.compile text) (loose.compile text) := by
  simp only [compile]
  cases exceeds : tight.maxLength.filter (· < text.utf8ByteSize) with
  | some bound => exact .inr ⟨_, rfl, (Option.filter_eq_some_iff.mp exceeds).1⟩
  | none =>
      rw [tighter.2.within exceeds]
      exact parseAt_follows tighter 0 text.toList

theorem le_unlimited (limits : Limits) : limits ≤ unlimited :=
  ⟨nofun, nofun⟩

/-- What is read under limits is read without them. -/
theorem parse_of_compile {limits : Limits} {text : String} {p : Pattern}
    (read : limits.compile text = .ok p) : Pattern.parse text = .ok p := by
  obtain same | ⟨e, refused, -⟩ := compile_follows limits.le_unlimited text
  · exact same.symm.trans read
  · rw [refused] at read
    cases read

theorem destructure_follows (tighter : tight ≤ loose) (text : String) (value : Value) :
    tight.Follows (tight.destructure text value) (loose.destructure text value) := by
  rw [destructure_eq_bind, destructure_eq_bind]
  apply (compile_follows tighter text).bind
  intro pattern
  exact .refl _

theorem tryArms_follows {β : Type} (tighter : tight ≤ loose) (value : Value)
    (arms : List (Arm β)) :
    tight.Follows (Dispatcher.tryArms tight value arms) (Dispatcher.tryArms loose value arms) := by
  induction arms with
  | nil => exact .refl _
  | cons arm arms ih =>
      rw [Dispatcher.tryArms_cons, Dispatcher.tryArms_cons]
      apply (destructure_follows tighter arm.pattern value).bind
      intro outcome
      cases outcome with
      | none => exact ih
      | some bound => exact .refl _

/-- Tighter limits either report a limit or give what looser ones give: the same pattern or the same
error for every text, the same match for every value, and the same result of every dispatch. -/
theorem limits_only_refuse (tighter : tight ≤ loose) :
    (∀ text, tight.Follows (tight.compile text) (loose.compile text)) ∧
    (∀ text value, tight.Follows (tight.destructure text value) (loose.destructure text value)) ∧
    (∀ (β : Type) (arms : List (Arm β)) (value : Value), tight.Follows
      ((Dispatcher.ofArms tight arms).dispatch value)
      ((Dispatcher.ofArms loose arms).dispatch value)) := by
  refine ⟨compile_follows tighter, destructure_follows tighter, ?_⟩
  intro β arms value
  rw [Dispatcher.dispatch_ofArms, Dispatcher.dispatch_ofArms]
  exact tryArms_follows tighter value arms

/-- The malformed item comes before the one that is nested too deep. -/
theorem limits_only_refuse_malformed_item :
    (⟨some 1, some 20⟩ : Limits) ≤ ⟨some 2, none⟩ ∧
      (⟨some 1, some 20⟩ : Limits).compile "[(a:), [[b]]]" = .error (.invalidPattern "(a:)") ∧
      (⟨some 2, none⟩ : Limits).compile "[(a:), [[b]]]" = .error (.invalidPattern "(a:)") := by
  have tighter : (⟨some 1, some 20⟩ : Limits) ≤ ⟨some 2, none⟩ := by
    constructor
    · rintro n ⟨⟩
      exact ⟨1, rfl, by decide⟩
    · rintro n ⟨⟩
  have answer : (⟨some 1, some 20⟩ : Limits).compile "[(a:), [[b]]]" =
      .error (.invalidPattern "(a:)") := by
    have refused : ((⟨some 1, some 20⟩ : Limits).compile "[(a:), [[b]]]").map (fun _ => ()) =
        .error (.invalidPattern "(a:)") := by
      decide +kernel
    cases outcome : (⟨some 1, some 20⟩ : Limits).compile "[(a:), [[b]]]" with
    | error e =>
        rw [outcome] at refused
        cases refused
        rfl
    | ok pattern =>
        rw [outcome] at refused
        cases refused
  refine ⟨tighter, answer, ?_⟩
  obtain same | ⟨e, refused, refuses⟩ := (limits_only_refuse tighter).1 "[(a:), [[b]]]"
  · rw [← same, answer]
  · rw [answer] at refused
    cases refused
    exact refuses.elim

end Destructure.Limits
