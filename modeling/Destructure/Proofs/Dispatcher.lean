import Destructure.Dispatcher
import Destructure.Proofs.Pattern.Levels
import Destructure.Proofs.Pattern.Matching

/-! # The first arm that fits decides

Arms whose patterns do not fit are passed over.  The first arm that is not passed over decides: its
action is run on the bindings, or the error of its pattern is the result.  No arm after it is looked
at.  Neither reading nor matching ever reports that no arm fits, so this error of a dispatch means
that all arms were passed over, whatever the handlers give.
-/

namespace Destructure

namespace Limits

theorem destructure_eq_bind (limits : Limits) (text : String) (value : Value) :
    limits.destructure text value = limits.compile text >>= (Pattern.destructure · value) := by
  rw [destructure]
  cases limits.compile text <;> rfl

theorem compile_ne_nonExhaustive (limits : Limits) (text : String) :
    limits.compile text ≠ .error .nonExhaustive := by
  intro refused
  rw [compile] at refused
  split at refused
  · cases refused
  · obtain ⟨bound, -, ⟨⟩⟩ | ⟨piece, ⟨⟩⟩ := Pattern.refusal_kind refused

theorem destructure_ne_nonExhaustive (limits : Limits) (text : String) (value : Value) :
    limits.destructure text value ≠ .error .nonExhaustive := by
  intro failed
  rw [destructure_eq_bind] at failed
  obtain refused | ⟨pattern, -, failed⟩ := bind_eq_error_iff.mp failed
  · exact limits.compile_ne_nonExhaustive text refused
  · have described := pattern.destructure_describes value
    rw [failed] at described
    obtain ⟨names, ⟨⟩, -⟩ := described

end Limits

variable {β : Type}

/-- What an arm that is not passed over makes of a value. -/
inductive Arm.Decides (limits : Limits) (value : Value) (arm : Arm β) :
    Except MatchError β → Prop where
  /-- The handler is given the bindings of the match. -/
  | call {handler bound} (action : arm.action = .call handler)
      (fits : limits.destructure arm.pattern value = .ok (some bound)) :
      Decides limits value arm (.ok (handler bound))
  /-- The bindings are dropped. -/
  | value {result bound} (action : arm.action = .value result)
      (fits : limits.destructure arm.pattern value = .ok (some bound)) :
      Decides limits value arm (.ok result)
  /-- The pattern cannot be read, or binds a name twice. -/
  | error {e} (failed : limits.destructure arm.pattern value = .error e) :
      Decides limits value arm (.error e)

namespace Dispatcher

/-- The patterns of all arms are read, and the value fits none of them. -/
def Unfit (limits : Limits) (value : Value) (arms : List (Arm β)) : Prop :=
  ∀ arm ∈ arms, limits.destructure arm.pattern value = .ok none

/-- The dispatcher of arms that are added one after the other. -/
def ofArms (limits : Limits) (arms : List (Arm β)) : Dispatcher β :=
  arms.foldl (fun d arm => d.push arm.pattern arm.action) (empty limits)

theorem ofArms_eq (limits : Limits) (arms : List (Arm β)) : ofArms limits arms = ⟨limits, arms⟩ := by
  have pushed : ∀ d : Dispatcher β, arms.foldl (fun d arm => d.push arm.pattern arm.action) d =
      ⟨d.limits, d.arms ++ arms⟩ := by
    induction arms with
    | nil => simp
    | cons arm arms ih =>
        intro d
        rw [List.foldl_cons, ih]
        simp only [push, List.append_assoc, List.singleton_append]
  exact pushed (empty limits)

theorem dispatch_ofArms (limits : Limits) (arms : List (Arm β)) (value : Value) :
    (ofArms limits arms).dispatch value = tryArms limits value arms := by
  rw [ofArms_eq, dispatch]

theorem tryArms_cons (limits : Limits) (value : Value) (arm : Arm β) (arms : List (Arm β)) :
    tryArms limits value (arm :: arms) = limits.destructure arm.pattern value >>= fun
      | none => tryArms limits value arms
      | some bound => .ok (arm.action.run bound) := by
  rw [tryArms]
  cases limits.destructure arm.pattern value with
  | error e => rfl
  | ok outcome => cases outcome <;> rfl

variable {limits : Limits} {value : Value}

theorem tryArms_append_of_unfit {arms : List (Arm β)} (unfit : Unfit limits value arms)
    (more : List (Arm β)) : tryArms limits value (arms ++ more) = tryArms limits value more := by
  induction arms with
  | nil => rfl
  | cons arm arms ih =>
      obtain ⟨first, others⟩ := List.forall_mem_cons.mp unfit
      rw [List.cons_append, tryArms_cons, first]
      exact ih others

theorem tryArms_of_decides {skipped : List (Arm β)} {arm : Arm β} {result : Except MatchError β}
    (unfit : Unfit limits value skipped) (decides : arm.Decides limits value result)
    (rest : List (Arm β)) : tryArms limits value (skipped ++ arm :: rest) = result := by
  rw [tryArms_append_of_unfit unfit, tryArms_cons]
  cases decides with
  | call action fits => rw [fits, action]; rfl
  | value action fits => rw [fits, action]; rfl
  | error failed => rw [failed]; rfl

theorem exists_decides {arm : Arm β} (fits : limits.destructure arm.pattern value ≠ .ok none) :
    ∃ result, arm.Decides limits value result := by
  cases outcome : limits.destructure arm.pattern value with
  | error e => exact ⟨_, .error outcome⟩
  | ok bound =>
      cases bound with
      | none => exact absurd outcome fits
      | some bound =>
          cases action : arm.action with
          | call handler => exact ⟨_, .call action outcome⟩
          | value result => exact ⟨_, .value action outcome⟩

/-- Either all arms are passed over, or a first one is not. -/
theorem unfit_or_decides (limits : Limits) (value : Value) (arms : List (Arm β)) :
    Unfit limits value arms ∨ ∃ skipped arm rest result, arms = skipped ++ arm :: rest ∧
      Unfit limits value skipped ∧ arm.Decides limits value result := by
  induction arms with
  | nil => exact .inl fun arm member => absurd member List.not_mem_nil
  | cons arm arms ih =>
      by_cases unfit : limits.destructure arm.pattern value = .ok none
      · obtain others | ⟨skipped, decider, rest, result, rfl, passed, decides⟩ := ih
        · exact .inl (List.forall_mem_cons.mpr ⟨unfit, others⟩)
        · exact .inr ⟨arm :: skipped, decider, rest, result, rfl,
            List.forall_mem_cons.mpr ⟨unfit, passed⟩, decides⟩
      · obtain ⟨result, decides⟩ := exists_decides unfit
        exact .inr ⟨[], arm, arms, result, rfl, fun _ member => absurd member List.not_mem_nil,
          decides⟩

theorem decides_ne_nonExhaustive {arm : Arm β} {result : Except MatchError β}
    (decides : arm.Decides limits value result) : result ≠ .error .nonExhaustive := by
  cases decides with
  | call action fits => exact nofun
  | value action fits => exact nofun
  | error failed =>
      rintro ⟨⟩
      exact limits.destructure_ne_nonExhaustive _ _ failed

theorem tryArms_eq_nonExhaustive_iff {arms : List (Arm β)} :
    tryArms limits value arms = .error .nonExhaustive ↔ Unfit limits value arms := by
  constructor
  · intro exhausted
    obtain unfit | ⟨skipped, arm, rest, result, rfl, unfit, decides⟩ :=
      unfit_or_decides limits value arms
    · exact unfit
    · rw [tryArms_of_decides unfit decides] at exhausted
      exact absurd exhausted (decides_ne_nonExhaustive decides)
  · intro unfit
    have passed := tryArms_append_of_unfit unfit []
    rwa [List.append_nil] at passed

theorem tryArms_append_of_decided {arms : List (Arm β)}
    (decided : tryArms limits value arms ≠ .error .nonExhaustive) (more : List (Arm β)) :
    tryArms limits value (arms ++ more) = tryArms limits value arms := by
  obtain unfit | ⟨skipped, arm, rest, result, rfl, unfit, decides⟩ :=
    unfit_or_decides limits value arms
  · exact absurd (tryArms_eq_nonExhaustive_iff.mpr unfit) decided
  · rw [List.append_assoc, List.cons_append, tryArms_of_decides unfit decides,
      tryArms_of_decides unfit decides]

theorem tryArms_eq_iff {arms : List (Arm β)} {result : Except MatchError β} :
    tryArms limits value arms = result ↔
      (Unfit limits value arms ∧ result = .error .nonExhaustive) ∨
      ∃ skipped arm rest, arms = skipped ++ arm :: rest ∧ Unfit limits value skipped ∧
        arm.Decides limits value result := by
  constructor
  · rintro rfl
    obtain unfit | ⟨skipped, arm, rest, result, rfl, unfit, decides⟩ :=
      unfit_or_decides limits value arms
    · exact .inl ⟨unfit, tryArms_eq_nonExhaustive_iff.mpr unfit⟩
    · refine .inr ⟨skipped, arm, rest, rfl, unfit, ?_⟩
      rwa [tryArms_of_decides unfit decides]
  · rintro (⟨unfit, rfl⟩ | ⟨skipped, arm, rest, rfl, unfit, decides⟩)
    · exact tryArms_eq_nonExhaustive_iff.mpr unfit
    · exact tryArms_of_decides unfit decides rest

/-- Dispatch goes by the first arm that is not passed over.  So a list of arms decides for every
list that it starts, unless it is exhausted, and then what follows it decides; it is exhausted
exactly if the patterns of all its arms are read and do not fit; and what follows the deciding arm
makes no difference. -/
theorem dispatch_first_match (limits : Limits) (A B : List (Arm β)) (value : Value) :
    ((ofArms limits A).dispatch value = .error .nonExhaustive →
      (ofArms limits (A ++ B)).dispatch value = (ofArms limits B).dispatch value) ∧
    ((ofArms limits A).dispatch value ≠ .error .nonExhaustive →
      (ofArms limits (A ++ B)).dispatch value = (ofArms limits A).dispatch value) ∧
    ((ofArms limits A).dispatch value = .error .nonExhaustive ↔
      ∀ arm ∈ A, limits.destructure arm.pattern value = .ok none) ∧
    (∀ result, (ofArms limits A).dispatch value = result ↔
      (Unfit limits value A ∧ result = .error .nonExhaustive) ∨
      ∃ skipped arm rest, A = skipped ++ arm :: rest ∧ Unfit limits value skipped ∧
        arm.Decides limits value result) ∧
    (∀ skipped arm rest, A = skipped ++ arm :: rest → Unfit limits value skipped →
      limits.destructure arm.pattern value ≠ .ok none →
      (ofArms limits A).dispatch value = (ofArms limits (skipped ++ arm :: B)).dispatch value) := by
  simp only [dispatch_ofArms]
  refine ⟨?_, ?_, tryArms_eq_nonExhaustive_iff, fun result => tryArms_eq_iff, ?_⟩
  · intro exhausted
    exact tryArms_append_of_unfit (tryArms_eq_nonExhaustive_iff.mp exhausted) B
  · intro decided
    exact tryArms_append_of_decided decided B
  · rintro skipped arm rest rfl unfit fits
    obtain ⟨result, decides⟩ := exists_decides fits
    rw [tryArms_of_decides unfit decides, tryArms_of_decides unfit decides]

/-- A handler may well give the error of an exhausted dispatch of its own. -/
example :
    (ofArms .unlimited [⟨"x", .call fun _ => .error .nonExhaustive⟩, ⟨"(x:", .value (.ok 0)⟩] :
      Dispatcher (Except MatchError Nat)).dispatch .null = .ok (.error .nonExhaustive) := by
  decide +kernel

end Dispatcher

end Destructure
