import Destructure.Pattern.Matching
import Destructure.Proofs.Bindings
import Destructure.Proofs.Pattern.Fits

/-! # Matching decides fitting

The three outcomes of a match, said in terms of `Fits`.  Bindings are the one way in which the value
fits, and no name occurs twice in them; a mismatch means that the value does not fit in any way; an
error names binders that the pattern repeats, so a pattern without repeated binders never gives one.

The merge check runs while the pattern is being traversed, so a repeated binder may stay unnoticed
when the value does not fit.  It never stays unnoticed when the value does fit.
-/

namespace Destructure.Pattern

/-- The error names some of the names that occur more than once. -/
def Repeats (names : List String) (e : MatchError) : Prop :=
  ∃ repeated, e = .duplicateBinding repeated ∧ repeated ≠ [] ∧
    ∀ name ∈ repeated, 2 ≤ names.count name

/-- What a result says about the ways in which a value fits a pattern with the given binders. -/
def Describes (fits : List (String × Value) → Prop) (names : List String) :
    Except MatchError (Option Bindings) → Prop
  | .ok (some b) => fits b.entries ∧ b.names.Nodup
  | .ok none => ∀ s, ¬ fits s
  | .error e => Repeats names e

namespace Repeats

theorem mono {names more e} (h : Repeats names e) (sub : names.Sublist more) : Repeats more e := by
  obtain ⟨repeated, rfl, nonempty, twice⟩ := h
  refine ⟨repeated, rfl, nonempty, ?_⟩
  intro name member
  exact Nat.le_trans (twice name member) (sub.count_le name)

theorem not_nodup {names e} (h : Repeats names e) : ¬ names.Nodup := by
  obtain ⟨repeated, rfl, nonempty, twice⟩ := h
  obtain ⟨name, member⟩ := List.exists_mem_of_ne_nil repeated nonempty
  intro distinct
  have once := List.nodup_iff_count_le_one.mp distinct name
  have := twice name member
  omega

end Repeats

theorem Describes.congr {fits fits' : List (String × Value) → Prop} {names more result}
    (h : Describes fits names result) (same : ∀ s, fits s ↔ fits' s) (sub : names.Sublist more) :
    Describes fits' more result := by
  match result, h with
  | .error _, h => exact h.mono sub
  | .ok none, h => exact fun s fit => h s ((same s).mpr fit)
  | .ok (some b), h => exact ⟨(same b.entries).mp h.1, h.2⟩

theorem describes_literal {literal : Value} {p v} (names : List String)
    (fits_iff : ∀ s, Fits p s v ↔ s = [] ∧ (v == literal) = true) :
    Describes (Fits p · v) names (.ok (matchLiteral literal v)) := by
  unfold matchLiteral
  split
  · rename_i same
    exact ⟨(fits_iff []).mpr ⟨rfl, same⟩, List.nodup_nil⟩
  · rename_i other
    intro s fit
    exact other ((fits_iff s).mp fit).2

theorem describes_merge {b c : Bindings} (left : b.names.Nodup) (right : c.names.Nodup) :
    Describes (· = b.entries ++ c.entries) (b.names ++ c.names) ((b.merge c).map some) := by
  rcases b.merge_cases c with ⟨merged, disjoint⟩ | ⟨refused, overlap⟩
  · rw [merged]
    refine ⟨rfl, ?_⟩
    rw [Bindings.names, List.map_append]
    exact List.nodup_append'.mpr ⟨left, right, disjoint⟩
  · rw [refused]
    refine ⟨b.shared c, rfl, overlap, ?_⟩
    intro name member
    obtain ⟨inRight, inLeft⟩ := Bindings.mem_shared.mp member
    have := List.count_pos_iff.mpr inLeft
    have := List.count_pos_iff.mpr inRight
    rw [List.count_append]
    omega

/-- The bindings of a first part, which every fitting value has, are passed on to what follows. -/
theorem describes_andThen {fits whole : List (String × Value) → Prop} {names more first result}
    {next : Bindings → Except MatchError (Option Bindings)}
    (defined : (match first with
      | .error e => .error e
      | .ok none => .ok none
      | .ok (some b) => next b) = result)
    (h : Describes fits names first) (sub : names.Sublist more)
    (cut : ∀ s, whole s → ∃ f, fits f)
    (rest : ∀ b : Bindings, fits b.entries → b.names.Nodup → Describes whole more (next b)) :
    Describes whole more result := by
  subst defined
  match first, h with
  | .error e, h => exact h.mono sub
  | .ok none, h =>
      intro s fit
      obtain ⟨f, fitFirst⟩ := cut s fit
      exact h f fitFirst
  | .ok (some b), h => exact rest b h.1 h.2

theorem fits_bool_iff {b s v} : Fits (.bool b) s v ↔ s = [] ∧ (v == .bool b) = true := by
  constructor
  · intro fit
    cases fit
    exact ⟨rfl, beq_self_eq_true b⟩
  · rintro ⟨rfl, same⟩
    cases v with
    | bool c =>
        obtain rfl : c = b := eq_of_beq same
        exact .bool _
    | null | number | str | list => cases same

theorem fits_number_iff {n s v} : Fits (.number n) s v ↔ s = [] ∧ (v == .number n) = true := by
  constructor
  · intro fit
    cases fit with
    | number same => exact ⟨rfl, same⟩
  · rintro ⟨rfl, same⟩
    cases v with
    | number m => exact .number same
    | null | bool | str | list => cases same

theorem fits_str_iff {text s v} : Fits (.str text) s v ↔ s = [] ∧ (v == .str text) = true := by
  constructor
  · intro fit
    cases fit
    exact ⟨rfl, beq_self_eq_true text⟩
  · rintro ⟨rfl, same⟩
    cases v with
    | str t =>
        obtain rfl : t = text := eq_of_beq same
        exact .str _
    | null | bool | number | list => cases same

theorem fits_array_iff {items s vs} : Fits (.array items) s (.list vs) ↔ FitsEach items s vs := by
  constructor
  · intro fit
    cases fit with
    | array each => exact each
  · exact .array

theorem fits_cons_iff {heads tail s vs} : Fits (.cons heads tail) s (.list vs) ↔
    ∃ f b, FitsEach heads f (vs.take heads.length) ∧
      Fits tail b (.list (vs.drop heads.length)) ∧ s = f ++ b := by
  constructor
  · intro fit
    generalize hw : Value.list vs = w at fit
    cases fit with
    | cons each last =>
        cases hw
        refine ⟨_, _, ?_, ?_, rfl⟩
        · rwa [each.take_eq]
        · rwa [each.drop_eq]
  · rintro ⟨f, b, each, last, rfl⟩
    have fit := Fits.cons each last
    rwa [List.take_append_drop] at fit

theorem fits_named_iff {name inner s v} :
    Fits (.named name inner) s v ↔ ∃ u, Fits inner u v ∧ s = (name, v) :: u := by
  constructor
  · intro fit
    cases fit with
    | named body => exact ⟨_, body, rfl⟩
  · rintro ⟨u, body, rfl⟩
    exact .named body

mutual
theorem destructure_describes (p : Pattern) (v : Value) :
    Describes (Fits p · v) p.binders (p.destructure v) := by
  cases p with
  | wildcard =>
      rw [destructure]
      exact ⟨.wildcard v, List.nodup_nil⟩
  | ident name =>
      rw [destructure]
      exact ⟨.ident name v, List.nodup_singleton name⟩
  | bool b =>
      rw [destructure]
      exact describes_literal _ fun s => fits_bool_iff
  | number n =>
      rw [destructure]
      exact describes_literal _ fun s => fits_number_iff
  | str text =>
      rw [destructure]
      exact describes_literal _ fun s => fits_str_iff
  | array items =>
      cases v with
      | list vs =>
          rw [destructure]
          split
          · rename_i length
            refine (destructureEach_describes items vs .empty length List.nodup_nil).congr
              (fun s => ?_) (List.Sublist.refl _)
            rw [fits_array_iff]
            constructor
            · rintro ⟨u, each, rfl⟩
              exact each
            · exact fun each => ⟨s, each, rfl⟩
          · rename_i length
            exact fun s fit => length (fits_array_iff.mp fit).length_eq
      | null | bool | number | str =>
          simp only [destructure]
          intro s fit
          cases fit
  | cons heads tail =>
      cases v with
      | list vs =>
          rw [destructure, binders]
          split
          · rename_i length
            have cut : (vs.take heads.length).length = heads.length := by
              rw [List.length_take]
              omega
            have front := destructureEach_describes heads _ .empty cut List.nodup_nil
            have back := destructure_describes tail (.list (vs.drop heads.length))
            refine describes_andThen rfl front (List.sublist_append_left _ _) ?_ ?_
            · intro s fit
              obtain ⟨f, b, each, last, rfl⟩ := fits_cons_iff.mp fit
              exact ⟨f, f, each, rfl⟩
            rintro bound ⟨f, each, entries⟩ distinct
            refine describes_andThen rfl back (List.sublist_append_right _ _) ?_ ?_
            · intro s fit
              obtain ⟨f, b, each, last, rfl⟩ := fits_cons_iff.mp fit
              exact ⟨b, last⟩
            intro more last distinctMore
            refine (describes_merge distinct distinctMore).congr (fun s => ?_) ?_
            · rw [fits_cons_iff, entries]
              constructor
              · rintro rfl
                exact ⟨f, more.entries, each, last, rfl⟩
              · rintro ⟨f', b, each', last', rfl⟩
                rw [each'.unique each, last'.unique last]
                rfl
            · rw [Bindings.names, entries, ← each.names, ← last.names]
              exact List.Sublist.refl _
          · rename_i length
            intro s fit
            obtain ⟨f, b, each, last, rfl⟩ := fits_cons_iff.mp fit
            have := each.length_eq
            rw [List.length_take] at this
            omega
      | null | bool | number | str =>
          simp only [destructure]
          intro s fit
          cases fit
  | named name inner =>
      rw [destructure, binders]
      refine describes_andThen rfl (destructure_describes inner v) (List.sublist_cons_self name _)
        ?_ ?_
      · intro s fit
        obtain ⟨u, body, rfl⟩ := fits_named_iff.mp fit
        exact ⟨u, body⟩
      intro bound body distinct
      have merged := describes_merge (b := .single name v) (List.nodup_singleton name) distinct
      refine merged.congr (fun s => ?_) ?_
      · rw [fits_named_iff]
        constructor
        · rintro rfl
          exact ⟨bound.entries, body, rfl⟩
        · rintro ⟨u, body', rfl⟩
          rw [body'.unique body]
          rfl
      · rw [Bindings.names_single, ← body.names]
        exact List.Sublist.refl _
termination_by sizeOf p

theorem destructureEach_describes (ps : List Pattern) (vs : List Value) (bound : Bindings)
    (length : vs.length = ps.length) (distinct : bound.names.Nodup) :
    Describes (fun s => ∃ u, FitsEach ps u vs ∧ s = bound.entries ++ u)
      (bound.names ++ bindersEach ps) (destructureEach ps vs bound) := by
  cases ps with
  | nil =>
      obtain rfl := List.length_eq_zero_iff.mp length
      rw [destructureEach]
      · exact ⟨⟨[], .nil, (List.append_nil _).symm⟩, distinct⟩
      · simp
  | cons p ps =>
      cases vs with
      | nil => cases length
      | cons v vs =>
          have shorter : vs.length = ps.length := by simpa using length
          rw [destructureEach, bindersEach, ← List.append_assoc]
          refine describes_andThen rfl (destructure_describes p v)
            ((List.sublist_append_right _ _).trans (List.sublist_append_left _ _)) ?_ ?_
          · rintro s ⟨u, each, rfl⟩
            cases each with
            | cons fit others => exact ⟨_, fit⟩
          intro more fit distinctMore
          have step := describes_merge distinct distinctMore
          rw [show more.names = p.binders from fit.names] at step
          cases merged : bound.merge more with
          | error e =>
              rw [merged] at step
              exact step.mono (List.sublist_append_left _ _)
          | ok both =>
              rw [merged] at step
              obtain ⟨entries, distinctBoth⟩ := step
              have names : both.names = bound.names ++ p.binders := by
                rw [Bindings.names, entries, List.map_append, ← fit.names]
                rfl
              rw [← names]
              refine (destructureEach_describes ps vs both shorter distinctBoth).congr
                (fun s => ?_) (List.Sublist.refl _)
              rw [entries]
              constructor
              · rintro ⟨u, others, rfl⟩
                exact ⟨more.entries ++ u, .cons fit others, List.append_assoc _ _ _⟩
              · rintro ⟨u, each, rfl⟩
                cases each with
                | cons fit' others =>
                    rw [fit'.unique fit]
                    exact ⟨_, others, (List.append_assoc _ _ _).symm⟩
termination_by sizeOf ps
end

/-- What is bound makes the value fit, and no name is bound twice. -/
theorem fits_of_destructure {p v b} (matched : p.destructure v = .ok (some b)) :
    Fits p b.entries v ∧ b.names.Nodup := by
  have described := p.destructure_describes v
  rwa [matched] at described

/-- A value that fits gives its bindings if no name is bound twice, and an error otherwise. -/
theorem destructure_of_fits {p s v} (fit : Fits p s v) :
    (p.binders.Nodup ∧ p.destructure v = .ok (some ⟨s⟩)) ∨
      ∃ e, p.destructure v = .error e ∧ Repeats p.binders e := by
  have described := p.destructure_describes v
  cases result : p.destructure v with
  | error e =>
      rw [result] at described
      exact .inr ⟨e, rfl, described⟩
  | ok outcome =>
      rw [result] at described
      cases outcome with
      | none => exact absurd fit (described s)
      | some b =>
          obtain ⟨fit', distinct⟩ := described
          obtain rfl := fit.unique fit'
          refine .inl ⟨?_, rfl⟩
          rw [← fit.names]
          exact distinct

/-- A value that does not fit gives a mismatch, unless a repeated binder is met before it. -/
theorem destructure_of_not_fits {p v} (unfit : ∀ s, ¬ Fits p s v) :
    p.destructure v = .ok none ∨ ∃ e, p.destructure v = .error e ∧ Repeats p.binders e := by
  have described := p.destructure_describes v
  cases result : p.destructure v with
  | error e =>
      rw [result] at described
      exact .inr ⟨e, rfl, described⟩
  | ok outcome =>
      rw [result] at described
      cases outcome with
      | none => exact .inl rfl
      | some b => exact absurd described.1 (unfit b.entries)

theorem destructure_of_fits_distinct {p s v} (distinct : p.binders.Nodup) (fit : Fits p s v) :
    p.destructure v = .ok (some ⟨s⟩) := by
  obtain ⟨-, result⟩ | ⟨e, -, repeats⟩ := destructure_of_fits fit
  · exact result
  · exact absurd distinct repeats.not_nodup

theorem destructure_of_not_fits_distinct {p v} (distinct : p.binders.Nodup)
    (unfit : ∀ s, ¬ Fits p s v) : p.destructure v = .ok none := by
  obtain result | ⟨e, -, repeats⟩ := destructure_of_not_fits unfit
  · exact result
  · exact absurd distinct repeats.not_nodup

/-- Matching finds exactly the ways in which a value fits.  Bindings are returned for a value that
fits and for pairwise different binders, and carry the binders in order; a value that fits a pattern
with a repeated binder is an error; a value that does not fit is a mismatch, or that error if the
pattern repeats a binder.  Hence a pattern that has matched some value gives no error on any other. -/
theorem destructure_sound_complete (p : Pattern) (v : Value) :
    (∀ b, p.destructure v = .ok (some b) ↔ Fits p b.entries v ∧ b.names.Nodup) ∧
    (∀ b, p.destructure v = .ok (some b) → b.names = p.binders) ∧
    (∀ s, Fits p s v → ¬ p.binders.Nodup →
      ∃ e, p.destructure v = .error e ∧ Repeats p.binders e) ∧
    ((∀ s, ¬ Fits p s v) →
      (p.binders.Nodup → p.destructure v = .ok none) ∧
        (p.destructure v = .ok none ∨ ∃ e, p.destructure v = .error e ∧ Repeats p.binders e)) ∧
    (∀ b w, p.destructure v = .ok (some b) →
      p.destructure w = .ok none ∨ ∃ c, p.destructure w = .ok (some c) ∧ c.names = b.names) := by
  have sound : ∀ {w b}, p.destructure w = .ok (some b) → Fits p b.entries w ∧ b.names.Nodup := by
    intro w b result
    have described := p.destructure_describes w
    rwa [result] at described
  have ordered : ∀ {w b}, p.destructure w = .ok (some b) → b.names = p.binders :=
    fun result => (sound result).1.names
  refine ⟨fun b => ⟨sound, ?_⟩, fun b => ordered, ?_, ?_, ?_⟩
  · intro given
    obtain ⟨fit, distinct⟩ := given
    rcases destructure_of_fits fit with ⟨_, result⟩ | ⟨e, _, repeats⟩
    · exact result
    · rw [← fit.names] at repeats
      exact absurd distinct repeats.not_nodup
  · intro s fit repeated
    rcases destructure_of_fits fit with ⟨distinct, _⟩ | failed
    · exact absurd distinct repeated
    · exact failed
  · intro unfit
    refine ⟨?_, destructure_of_not_fits unfit⟩
    intro distinct
    rcases destructure_of_not_fits unfit with result | ⟨e, _, repeats⟩
    · exact result
    · exact absurd distinct repeats.not_nodup
  · intro b w result
    have distinct : p.binders.Nodup := by
      rw [← ordered result]
      exact (sound result).2
    have described := p.destructure_describes w
    cases other : p.destructure w with
    | error e =>
        rw [other] at described
        exact absurd distinct described.not_nodup
    | ok outcome =>
        cases outcome with
        | none => exact .inl rfl
        | some c => exact .inr ⟨c, rfl, by rw [ordered other, ordered result]⟩

/-- A repeated binder goes unnoticed in a list that is too short, and is named in one that fits. -/
example :
    (array [ident "a", ident "a"]).destructure (.list [.null]) = .ok none ∧
      (array [ident "a", ident "a"]).destructure (.list [.null, .null]) =
        .error (.duplicateBinding ["a"]) := by
  constructor <;> rfl

end Destructure.Pattern
