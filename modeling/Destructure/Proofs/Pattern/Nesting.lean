import Destructure.Proofs.Limits
import Destructure.Proofs.Pattern.Reading

/-! # How deep patterns nest

The depth of a pattern is told from the pattern alone.  Reading goes past a limit exactly if the
pattern that the text denotes is deeper than the limit.  The order in which the parts are read does
not matter: every part is read one level below the whole, whatever was read before it.
-/

namespace Destructure

namespace Pattern

mutual
/-- How many patterns the innermost part of a pattern stands in. -/
def depth : Pattern → Nat
  | wildcard | ident _ | bool _ | number _ | str _ => 0
  | array items => depthEach items
  | cons heads tail => max (depthEach heads) (depth tail + 1)
  | named _ inner => depth inner + 1

/-- The depth of a pattern that has these as its direct parts, which is zero if it has none. -/
def depthEach : List Pattern → Nat
  | [] => 0
  | p :: ps => max (depth p + 1) (depthEach ps)
end

theorem depth_atom (a : Atom) : a.toPattern.depth = 0 := by
  cases a with
  | word letters =>
      simp only [Atom.toPattern]
      split <;> rfl
  | number | str | wildcard => rfl

/-- The result of reading as far down as the given level. -/
def within {α : Type} (bound level : Nat) (result : α) : Except MatchError α :=
  if level ≤ bound then .ok result else .error (.depthLimit bound)

theorem within_bind {α β : Type} (bound m n : Nat) (x : α) (f : α → β) :
    (within bound m x >>= fun y => within bound n (f y)) = within bound (max m n) (f x) := by
  have both : max m n ≤ bound ↔ m ≤ bound ∧ n ≤ bound := Nat.max_le
  simp only [within, both]
  by_cases first : m ≤ bound
  · simp only [first, if_true, true_and]
    rfl
  · simp only [first, if_false, false_and]
    rfl

theorem within_map {α β : Type} (bound m : Nat) (x : α) (f : α → β) :
    (within bound m x >>= fun y => pure (f y)) = within bound m (f x) := by
  by_cases first : m ≤ bound
  · simp [within, first, bind, Except.bind, pure, Except.pure]
  · simp [within, first, bind, Except.bind]

/-- A list of texts goes as deep as its deepest pattern, and stays at its own level without any. -/
theorem mapM_within {bound depth : Nat} (inside : depth ≤ bound)
    {f : List Char → Except MatchError Pattern} {texts : List (List Char)} {ps : List Pattern}
    (each : List.Forall₂ (fun text p => f text = within bound (depth + 1 + p.depth) p) texts ps) :
    texts.mapM f = within bound (depth + depthEach ps) ps := by
  induction each with
  | nil => simp [within, depthEach, inside, pure, Except.pure]
  | @cons text p texts ps first others ih =>
      have deepest : max (depth + 1 + p.depth) (depth + depthEach ps) =
          depth + depthEach (p :: ps) := by
        simp only [depthEach]
        omega
      simp only [List.mapM_cons, first, ih, within_map, within_bind, deepest]

/-- A text that denotes a pattern is read under a limit as that pattern, or refused for its depth. -/
theorem parseAt_within {text : List Char} {p : Pattern} (accepted : read text = .ok p)
    (bound depth : Nat) : parseAt (some bound) depth text = within bound (depth + p.depth) p := by
  induction text using partsInduction generalizing p depth with
  | level text ih =>
      obtain ⟨s, outlines, denotes⟩ := read_eq_ok_iff.mp accepted
      have found := Shape.ofText?_eq_some_iff.mpr outlines
      rw [parseAt_eq, found]
      by_cases past : bound < depth
      · have exceeds : exceeded? (some bound) depth = some bound := by simp [exceeded?, past]
        have deeper : ¬ depth + p.depth ≤ bound := by omega
        simp only [exceeds, within, if_neg deeper]
      · have inside : depth ≤ bound := by omega
        have stays : exceeded? (some bound) depth = none := by simp [exceeded?, inside]
        have part : ∀ {piece q}, piece ∈ s.parts → read piece = .ok q →
            parseAt (some bound) (depth + 1) piece = within bound (depth + 1 + q.depth) q :=
          fun member result => ih s _ found member result (depth + 1)
        have parts : ∀ {texts ps}, (∀ piece ∈ texts, piece ∈ s.parts) →
            List.Forall₂ (read · = .ok ·) texts ps →
            texts.mapM (parseAt (some bound) (depth + 1)) =
              within bound (depth + depthEach ps) ps := by
          intro texts ps members each
          apply mapM_within inside
          have both := (List.forall₂_and_left (p := (· ∈ s.parts)) _ _).mpr ⟨members, each⟩
          exact both.imp fun piece q given => part given.1 given.2
        simp only [stays]
        cases denotes with
        | atom a => simp [within, depth_atom, inside]
        | @array texts items each =>
            have readItems : texts.mapM (parseAt (some bound) (depth + 1)) =
                within bound (depth + depthEach items) items := parts (fun piece member => member) each
            simp only [readItems, within_map, Pattern.depth]
        | @cons texts heads last tail each final =>
            have readTail := part (List.mem_append_right _ List.mem_cons_self) final
            have readHeads := parts (fun piece member => List.mem_append_left _ member) each
            have deepest : max (depth + 1 + tail.depth) (depth + depthEach heads) =
                depth + (Pattern.cons heads tail).depth := by
              simp only [Pattern.depth]
              omega
            simp only [readTail, readHeads, within_map, within_bind, deepest]
        | @named name piece inner body =>
            have readInner : parseAt (some bound) (depth + 1) piece =
                within bound (depth + 1 + inner.depth) inner := part List.mem_cons_self body
            have deepest : depth + 1 + inner.depth =
                depth + (Pattern.named (String.ofList name) inner).depth := by
              simp only [Pattern.depth]
              omega
            simp only [readInner, within_map, deepest]

end Pattern

namespace Limits

/-- The limits are exact.  A text that is too long is refused for its length, whatever it holds.  Of
all other texts, those that denote a pattern are refused exactly if the pattern is too deep, and those
that denote none are refused as without limits or for their depth. -/
theorem limits_exact (limits : Limits) (text : String) :
    (∀ bound, limits.maxLength = some bound → bound < text.utf8ByteSize →
      limits.compile text = .error (.lengthLimit bound text.utf8ByteSize)) ∧
    ((∀ bound, limits.maxLength = some bound → text.utf8ByteSize ≤ bound) →
      (limits.maxDepth = none → limits.compile text = Pattern.parse text) ∧
      ∀ bound, limits.maxDepth = some bound →
        (∀ p, Pattern.parse text = .ok p → limits.compile text =
          if p.depth ≤ bound then .ok p else .error (.depthLimit bound)) ∧
        (∀ e, Pattern.parse text = .error e → (∃ piece, e = .invalidPattern piece) ∧
          (limits.compile text = .error e ∨
            limits.compile text = .error (.depthLimit bound)))) := by
  have short : (∀ bound, limits.maxLength = some bound → text.utf8ByteSize ≤ bound) →
      limits.compile text = Pattern.parseAt limits.maxDepth 0 text.toList := by
    intro fits
    have free : limits.maxLength.filter (· < text.utf8ByteSize) = none := by
      simpa [Option.filter_eq_none_iff] using fits
    rw [compile, free]
  constructor
  · intro bound limit long
    have past : limits.maxLength.filter (· < text.utf8ByteSize) = some bound := by
      simpa [limit] using long
    rw [compile, past]
  · intro fits
    rw [short fits]
    constructor
    · intro unlimited
      rw [unlimited, Pattern.parse]
    · intro bound limit
      rw [limit]
      constructor
      · intro p accepted
        rw [Pattern.parseAt_within accepted, Pattern.within, Nat.zero_add]
      · intro e refused
        constructor
        · obtain ⟨_, absent, -⟩ | invalid := Pattern.refusal_kind refused
          · cases absent
          · exact invalid
        · have tighter : (⟨some bound, none⟩ : Limits) ≤ unlimited := by
            constructor
            · intro n absent
              cases absent
            · intro n absent
              cases absent
          obtain same | ⟨e', refused', refuses⟩ := parseAt_follows tighter 0 text.toList
          · exact .inl (same.trans refused)
          · cases e' with
            | depthLimit other =>
                cases refuses
                exact .inr refused'
            | lengthLimit => cases refuses
            | invalidPattern | duplicateBinding | nonExhaustive => exact refuses.elim

end Limits

end Destructure
