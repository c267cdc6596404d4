import Destructure.Proofs.Limits
import Destructure.Proofs.Pattern.Descent

/-! # Handlers that dispatch again

A handler may dispatch values of its own choice and go on with what comes of them.  If it chooses only
values that are bound below the root of its own pattern, these are smaller than the value that its arm
was given.  So dispatches nest no deeper than the value is large, and every dispatch ends.
-/

namespace Destructure

/-- What a handler does: it ends with a result, or has a value dispatched again and goes on with the
outcome. -/
inductive Course (β : Type) where
  | done (result : β)
  | again (value : Value) (next : Except MatchError β → Course β)

variable {β : Type}

namespace Course

/-- The result, if there is an outcome for every value that is dispatched again. -/
def result? (outcome? : Value → Option (Except MatchError β)) : Course β → Option β
  | done result => some result
  | again value next => (outcome? value).bind fun outcome => result? outcome? (next outcome)

/-- No other values are dispatched again, whatever the outcomes are. -/
inductive Asks (allowed : Value → Prop) : Course β → Prop where
  | done (result : β) : Asks allowed (done result)
  | again {value next} (first : allowed value) (later : ∀ outcome, Asks allowed (next outcome)) :
      Asks allowed (again value next)

theorem Asks.mono {allowed more : Value → Prop} {course : Course β} (h : course.Asks allowed)
    (wider : ∀ value, allowed value → more value) : course.Asks more := by
  induction h with
  | done result => exact .done result
  | again first later ih => exact .again (wider _ first) ih

/-- There is a result from some depth on, if there are outcomes from that depth on. -/
theorem Asks.exists_result {allowed : Value → Prop} {course : Course β} (h : course.Asks allowed)
    {outcome? : Nat → Value → Option (Except MatchError β)} {least : Nat}
    (settled : ∀ value, allowed value →
      ∃ outcome, ∀ depth, least ≤ depth → outcome? depth value = some outcome) :
    ∃ result, ∀ depth, least ≤ depth → course.result? (outcome? depth) = some result := by
  induction h with
  | done result => exact ⟨result, fun depth _ => rfl⟩
  | @again value next first later ih =>
      obtain ⟨outcome, found⟩ := settled value first
      obtain ⟨result, ends⟩ := ih outcome
      refine ⟨result, fun depth deep => ?_⟩
      rw [result?, found depth deep]
      exact ends depth deep

end Course

/-- The value is bound below the root of the pattern that is read. -/
def Limits.BindsBelow (limits : Limits) (text : String) (bound : Bindings) (w : Value) : Prop :=
  ∃ p name, limits.compile text = .ok p ∧ (name, w) ∈ bound.entries ∧ name ∉ p.rootBinders

theorem Limits.BindsBelow.size_lt {limits : Limits} {text : String} {v w : Value}
    {bound : Bindings} (below : limits.BindsBelow text bound w)
    (fits : limits.destructure text v = .ok (some bound)) : w.size < v.size := by
  obtain ⟨p, name, read, member, notRoot⟩ := below
  rw [Limits.destructure_eq_bind, read] at fits
  exact (Pattern.size_bound (Limits.parse_of_compile read) fits member).2.mpr notRoot

namespace Arm

variable {limits : Limits} {arm : Arm β}

theorem Decides.exists_run {value : Value} {result : β}
    (decides : arm.Decides limits value (.ok result)) : ∃ bound,
    limits.destructure arm.pattern value = .ok (some bound) ∧ arm.action.run bound = result := by
  cases decides with
  | call action fits => exact ⟨_, fits, by rw [action]; rfl⟩
  | value action fits => exact ⟨_, fits, by rw [action]; rfl⟩

end Arm

namespace Dispatcher

/-- An arm that fits the second value binds the first one below the root of its pattern. -/
def Passes (d : Dispatcher β) (w v : Value) : Prop :=
  ∃ arm ∈ d.arms, ∃ bound, d.limits.destructure arm.pattern v = .ok (some bound) ∧
    d.limits.BindsBelow arm.pattern bound w

theorem passes_wellFounded (d : Dispatcher β) : WellFounded d.Passes := by
  apply Subrelation.wf _ (measure Value.size).wf
  rintro w v ⟨arm, -, bound, fits, below⟩
  exact below.size_lt fits

/-- What comes of a value, unless dispatches nest deeper than this. -/
def resolve? (d : Dispatcher (Course β)) : Nat → Value → Option (Except MatchError β)
  | 0, _ => none
  | depth + 1, value =>
    match d.dispatch value with
    | .error e => some (.error e)
    | .ok course => (course.result? (resolve? d depth)).map .ok

/-- Handlers dispatch again only values that are bound below the root of their own pattern. -/
def Descends (d : Dispatcher (Course β)) : Prop :=
  ∀ arm ∈ d.arms, ∀ value bound, d.limits.destructure arm.pattern value = .ok (some bound) →
    (arm.action.run bound).Asks (d.limits.BindsBelow arm.pattern bound)

/-- One dispatch asks for smaller values only. -/
theorem Descends.asks {d : Dispatcher (Course β)} (descends : d.Descends) {value : Value}
    {course : Course β} (dispatched : d.dispatch value = .ok course) :
    course.Asks (·.size < value.size) := by
  obtain ⟨-, ⟨⟩⟩ | ⟨skipped, arm, rest, arms, -, decides⟩ := tryArms_eq_iff.mp dispatched
  have member : arm ∈ d.arms := by
    rw [arms]
    exact List.mem_append_right _ List.mem_cons_self
  obtain ⟨bound, fits, rfl⟩ := decides.exists_run
  apply (descends arm member value bound fits).mono
  intro w below
  exact below.size_lt fits

/-- By induction on the size of the value: what is asked for is smaller and has an outcome. -/
theorem Descends.exists_outcome {d : Dispatcher (Course β)} (descends : d.Descends) (least : Nat)
    (value : Value) (small : value.size ≤ least) :
    ∃ outcome, ∀ depth, least ≤ depth → d.resolve? depth value = some outcome := by
  induction least generalizing value with
  | zero => exact absurd value.size_pos (Nat.not_lt_of_le small)
  | succ least ih =>
      have unfolded : ∀ {outcome}, (∀ depth, least ≤ depth →
          d.resolve? (depth + 1) value = some outcome) →
          ∀ depth, least + 1 ≤ depth → d.resolve? depth value = some outcome := by
        intro outcome found depth deep
        obtain ⟨depth, rfl⟩ := Nat.exists_eq_succ_of_ne_zero (Nat.ne_zero_of_lt deep)
        exact found depth (Nat.le_of_succ_le_succ deep)
      cases dispatched : d.dispatch value with
      | error e =>
          refine ⟨.error e, unfolded fun depth _ => ?_⟩
          rw [resolve?, dispatched]
      | ok course =>
          have settled : ∀ w : Value, w.size < value.size →
              ∃ outcome, ∀ depth, least ≤ depth → d.resolve? depth w = some outcome :=
            fun w smaller => ih w (by omega)
          obtain ⟨result, ends⟩ := (descends.asks dispatched).exists_result settled
          refine ⟨.ok result, unfolded fun depth deep => ?_⟩
          rw [resolve?, dispatched]
          simp only [ends depth deep, Option.map_some]

/-- Recursion through handlers is well founded.  What a pattern binds is no larger than the value, and
smaller exactly if it is bound below the root.  So no chain of values is endless in which each is bound
below the root by an arm that fits the one before.  If handlers dispatch again only such values,
every dispatch ends, and dispatches nest no deeper than the value is large. -/
theorem recursion_ends :
    (∀ (text : String) (p : Pattern), Pattern.parse text = .ok p →
      ∀ (v : Value) (b : Bindings), p.destructure v = .ok (some b) →
        ∀ name w, (name, w) ∈ b.entries →
          w.size ≤ v.size ∧ (w.size < v.size ↔ name ∉ p.rootBinders)) ∧
    (∀ (β : Type) (d : Dispatcher β), WellFounded d.Passes) ∧
    (∀ (β : Type) (d : Dispatcher (Course β)), d.Descends →
      ∀ v : Value, ∃ outcome, ∀ depth, v.size ≤ depth → d.resolve? depth v = some outcome) := by
  refine ⟨?_, fun β d => d.passes_wellFounded, ?_⟩
  · intro text p read v b matched name w member
    exact Pattern.size_bound read matched member
  · intro β d descends v
    exact descends.exists_outcome v.size v (Nat.le_refl _)

/-- Adds up the integers of a list, the rest of the list by dispatching it again. -/
def sum : Dispatcher (Course Int) where
  limits := .unlimited
  arms := [⟨"[]", .value (.done 0)⟩, ⟨"(x:xs)", .call fun bound =>
    match bound.values with
    | [.number (.int i), rest] => .again rest fun
      | .ok total => .done (i.toInt + total)
      | .error _ => .done 0
    | _ => .done 0⟩]

theorem compile_head_tail : Limits.unlimited.compile "(x:xs)" =
    .ok (.cons [.ident "x"] (.ident "xs")) := by
  have head : Pattern.read ['x'] = .ok (.ident "x") :=
    Pattern.read_atom (@Atom.Spells.word ['x'] rfl)
  have tail : Pattern.read ['x', 's'] = .ok (.ident "xs") :=
    Pattern.read_atom (@Atom.Spells.word ['x', 's'] rfl)
  exact (Pattern.read_cons_of_readEach (List.cons_ne_nil _ _) (.cons head .nil) tail).mpr
    ⟨by decide, by decide⟩

theorem sum_descends : sum.Descends := by
  intro arm member value bound fits
  rcases List.mem_pair.mp member with rfl | rfl
  · exact .done 0
  · rw [Limits.destructure_eq_bind, sum, compile_head_tail] at fits
    cases value with
    | null | bool | number | str => cases fits
    | list items =>
        cases items with
        | nil => cases fits
        | cons v vs =>
            cases fits
            have below : Limits.unlimited.BindsBelow "(x:xs)"
                ⟨[("x", v), ("xs", .list vs)]⟩ (.list vs) :=
              ⟨_, "xs", compile_head_tail, by simp, by simp [Pattern.rootBinders]⟩
            cases v with
            | null | bool | str | list => exact .done 0
            | number n =>
                cases n with
                | float x => exact .done 0
                | int i =>
                    refine .again below fun outcome => ?_
                    cases outcome with
                    | ok total => exact .done _
                    | error e => exact .done 0

theorem recursion_ends_sum :
    (Value.list [.ofInt64 2, .ofInt64 3]).size <
        (Value.list [.ofInt64 1, .ofInt64 2, .ofInt64 3]).size ∧
      sum.Descends ∧
      ∀ depth, 4 ≤ depth → sum.resolve? depth (.list [.ofInt64 1, .ofInt64 2, .ofInt64 3]) =
        some (.ok 6) := by
  obtain ⟨bounds, -, ends⟩ := recursion_ends
  have matched : (Pattern.cons [.ident "x"] (.ident "xs")).destructure
      (.list [.ofInt64 1, .ofInt64 2, .ofInt64 3]) =
        .ok (some ⟨[("x", .ofInt64 1), ("xs", .list [.ofInt64 2, .ofInt64 3])]⟩) := rfl
  obtain ⟨-, smaller⟩ := bounds "(x:xs)" _ (Limits.parse_of_compile compile_head_tail) _ _ matched
    "xs" (.list [.ofInt64 2, .ofInt64 3]) (by simp)
  obtain ⟨outcome, found⟩ :=
    ends Int sum sum_descends (.list [.ofInt64 1, .ofInt64 2, .ofInt64 3])
  have six : sum.resolve? 4 (.list [.ofInt64 1, .ofInt64 2, .ofInt64 3]) = some (.ok 6) := by
    decide +kernel
  have large : (Value.list [.ofInt64 1, .ofInt64 2, .ofInt64 3]).size = 4 := rfl
  rw [large] at found
  refine ⟨smaller.mpr (by simp [Pattern.rootBinders]), sum_descends, fun depth deep => ?_⟩
  rw [found depth deep, ← found 4 (Nat.le_refl 4), six]

end Dispatcher

end Destructure
