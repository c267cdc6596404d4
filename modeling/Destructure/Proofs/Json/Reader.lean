import Destructure.Json.Reader
import Destructure.Proofs.Dispatcher
import Destructure.Proofs.Json.Token
import Destructure.Proofs.Pattern.Composition

/-! # Written values are read back

The reader goes over the tokens of a value from the state in which a value must come to the state in
which that value has just ended, whatever arrays are open around it.  So a value that is readable
inside no array comes back from what it is written as.

Conversely all that the reader holds is readable: its numbers are finite, and no array that it has
open stands in too many others.  A value that was read is therefore read back, and so is whatever a
pattern binds in it, since that is a part of the value or the end of one of its lists.
-/

namespace Destructure.Json

namespace Readable

/-- A value that is readable inside some arrays is readable inside fewer. -/
theorem mono {deep depth : Nat} {v : Value} (h : Readable deep v) (le : depth ≤ deep) :
    Readable depth v := by
  induction h generalizing depth with
  | null => exact .null
  | bool b => exact .bool b
  | number finite => exact .number finite
  | str text => exact .str text
  | list inside each ih =>
      apply Readable.list (by omega)
      intro v member
      exact ih v member (by omega)

theorem hereditary (depth : Nat) : Pattern.Hereditary (Readable depth) where
  item h member := by
    cases h with
    | list inside each => exact (each _ member).mono (Nat.le_succ depth)
  ending h := by
    cases h with
    | list inside each =>
        apply Readable.list inside
        intro v member
        exact each v (List.mem_append_right _ member)

end Readable

/-! ## From tokens to values -/

theorem exists_tokensOf_eq_cons (v : Value) :
    ∃ token rest, tokensOf v = token :: rest ∧ token ≠ .closing := by
  cases v with
  | null | bool | number | str => exact ⟨_, [], rfl, nofun⟩
  | list items => exact ⟨.opening, _, rfl, nofun⟩

/-- Items start with a token other than the bracket that closes their list. -/
theorem exists_tokensOfEach_eq_cons (v : Value) (vs : List Value) : ∃ token rest,
    [Token.comma].intercalate (tokensOfEach (v :: vs)) = token :: rest ∧ token ≠ .closing := by
  obtain ⟨token, others, found, item⟩ := exists_tokensOf_eq_cons v
  cases vs with
  | nil => exact ⟨token, others, by simp [tokensOfEach, found], item⟩
  | cons w ws =>
      refine ⟨token, others ++ .comma :: [Token.comma].intercalate (tokensOfEach (w :: ws)), ?_, item⟩
      simp [tokensOfEach, found, List.intercalate_cons_cons]

/-- Such a token is taken for the start of a first item. -/
theorem step_first {token : Token} (item : token ≠ .closing) (frames : List (List Value)) :
    State.step (.first frames) token = State.step (.value ([] :: frames)) token := by
  cases token with
  | closing => exact absurd rfl item
  | null | bool | number | str | comma | opening => rfl

mutual
/-- The tokens of a value lead the reader past that value, whatever comes after them. -/
theorem foldlM_tokensOf (v : Value) (frames : List (List Value))
    (readable : Readable frames.length v) (rest : List Token) :
    (tokensOf v ++ rest).foldlM State.step (.value frames) =
      rest.foldlM State.step (.after frames v) := by
  cases readable with
  | null | bool | number | str => rfl
  | @list _ items inside each =>
      have opened : State.step (.value frames) .opening = some (.first frames) := if_pos inside
      simp only [tokensOf, List.cons_append, List.append_assoc, List.nil_append, List.foldlM_cons,
        opened, Option.bind_eq_bind, Option.bind_some]
      cases items with
      | nil => rfl
      | cons v vs =>
          have body := foldlM_tokensOfEach v vs [] each rest
          obtain ⟨token, others, begins, item⟩ := exists_tokensOfEach_eq_cons v vs
          rw [begins] at body ⊢
          -- a list without items differs from one just opened at the closing bracket only
          simpa [step_first item] using body
termination_by sizeOf v

theorem foldlM_tokensOfEach (v : Value) (vs : List Value) {frames : List (List Value)}
    (items : List Value) (each : ∀ w ∈ v :: vs, Readable (frames.length + 1) w)
    (rest : List Token) :
    ([.comma].intercalate (tokensOfEach (v :: vs)) ++ .closing :: rest).foldlM State.step
        (.value (items :: frames)) =
      rest.foldlM State.step (.after frames (.list (items.reverse ++ v :: vs))) := by
  obtain ⟨first, others⟩ := List.forall_mem_cons.mp each
  have item := foldlM_tokensOf v (items :: frames) first
  cases vs with
  | nil => simp [tokensOfEach, item, State.step]
  | cons w ws =>
      have body := foldlM_tokensOfEach w ws (v :: items) others rest
      have comma : State.step (.after (items :: frames) v) .comma =
        some (.value ((v :: items) :: frames)) := rfl
      simp only [List.reverse_cons, List.append_assoc, List.singleton_append] at body
      simp only [tokensOfEach, List.intercalate_cons_cons, List.append_assoc, List.cons_append,
        List.nil_append, List.foldlM_cons, item, comma, Option.bind_eq_bind, Option.bind_some]
      exact body
termination_by sizeOf (v :: vs)
end

/-- A value that is readable outside all arrays is read back from what it is written as. -/
theorem read?_write {v : Value} (readable : Readable 0 v) :
    read? (String.ofList (write v)) = some v := by
  have scanned := tokens?_write v readable endsNumber_nil
  have run := foldlM_tokensOf v [] readable []
  simp only [List.append_nil, tokens?, Option.map_some] at scanned run
  simp only [read?, String.toList_ofList, scanned, Option.bind_some, ofTokens?, run]
  rfl

/-! ## What the reader holds -/

theorem isFinite_of_scan? {text rest : List Char} {n : Number}
    (h : Token.scan? text = some (.number n, rest)) : n.IsFinite := by
  unfold Token.scan? at h
  split at h
  case h_4 =>
    obtain ⟨found, scanned, same⟩ := Option.map_eq_some_iff.mp h
    cases same
  case h_8 =>
    obtain ⟨found, scanned, same⟩ := Option.map_eq_some_iff.mp h
    cases same
    exact isFinite_of_scanNumber? scanned
  all_goals cases h

/-- The numbers among the tokens of a text are finite. -/
theorem isFinite_of_tokens? {text : List Char} {tokens : List Token} (h : tokens? text = some tokens)
    {n : Number} (member : .number n ∈ tokens) : n.IsFinite := by
  fun_induction tokens? text generalizing tokens with
  | case1 =>
      cases h
      cases member
  | case2 c rest space ih => exact ih h member
  | case3 => cases h
  | case4 c rest solid token after scanned ih =>
      obtain ⟨others, found, rfl⟩ := Option.map_eq_some_iff.mp h
      cases member with
      | head => exact isFinite_of_scan? scanned
      | tail _ later => exact ih found later

/-- Holds of arrays that may be open, the innermost first: each stands in not too many others, and
its items are readable inside it and them. -/
inductive Open : List (List Value) → Prop where
  | nil : Open []
  | cons {items frames} (inside : frames.length < maxNesting)
      (each : ∀ v ∈ items, Readable (frames.length + 1) v) (outer : Open frames) :
      Open (items :: frames)

namespace State

def Sound : State → Prop
  | value frames => Open frames
  | first frames => Open ([] :: frames)
  | after frames v => Open frames ∧ Readable frames.length v

theorem Sound.start {frames : List (List Value)} {token : Token} {s : State} (opened : Open frames)
    (finite : ∀ n, token = .number n → n.IsFinite) (h : State.start frames token = some s) :
    s.Sound := by
  cases token with
  | null =>
      cases h
      exact ⟨opened, .null⟩
  | bool b =>
      cases h
      exact ⟨opened, .bool b⟩
  | number n =>
      cases h
      exact ⟨opened, .number (finite n rfl)⟩
  | str text =>
      cases h
      exact ⟨opened, .str text⟩
  | comma | closing => cases h
  | opening =>
      rw [State.start] at h
      split at h
      · rename_i inside
        cases h
        exact .cons inside nofun opened
      · cases h

/-- Every token that is taken leads from a sound state to a sound state. -/
theorem Sound.step {s t : State} {token : Token} (sound : s.Sound)
    (finite : ∀ n, token = .number n → n.IsFinite) (h : s.step token = some t) : t.Sound := by
  cases s with
  | value frames => exact Sound.start sound finite h
  | first frames =>
      by_cases closing : token = .closing
      · subst closing
        cases h
        cases sound with
        | cons inside each outer => exact ⟨outer, .list inside nofun⟩
      · rw [step_first closing] at h
        exact Sound.start sound finite h
  | after frames v =>
      obtain ⟨opened, readable⟩ := sound
      cases opened with
      | nil => cases token <;> cases h
      | @cons items frames inside each outer =>
          have all : ∀ w ∈ v :: items, Readable (frames.length + 1) w :=
            List.forall_mem_cons.mpr ⟨readable, each⟩
          cases token with
          | comma =>
              cases h
              exact .cons inside all outer
          | closing =>
              cases h
              refine ⟨outer, .list inside ?_⟩
              intro w member
              exact all w (List.mem_reverse.mp member)
          | null | bool | number | str | opening => cases h

theorem Sound.run {s t : State} {tokens : List Token} (sound : s.Sound)
    (finite : ∀ n, .number n ∈ tokens → n.IsFinite) (h : tokens.foldlM State.step s = some t) :
    t.Sound := by
  induction tokens generalizing s with
  | nil =>
      cases h
      exact sound
  | cons token tokens ih =>
      obtain ⟨next, stepped, run⟩ := Option.bind_eq_some_iff.mp h
      apply ih (sound.step ?_ stepped) ?_ run
      · rintro n rfl
        exact finite n List.mem_cons_self
      · intro n member
        exact finite n (List.mem_cons_of_mem _ member)

end State

theorem readable_of_read? {text : String} {v : Value} (h : read? text = some v) : Readable 0 v := by
  obtain ⟨tokens, scanned, built⟩ := Option.bind_eq_some_iff.mp h
  obtain ⟨final, run, result⟩ := Option.bind_eq_some_iff.mp built
  have initial : (State.value []).Sound := Open.nil
  have sound := initial.run (fun n => isFinite_of_tokens? scanned) run
  unfold State.result? at result
  split at result
  · cases result
    exact sound.2
  · cases result

/-! ## Round trips -/

/-- A value that was read is read back from what it is written as, and so is every value that a
pattern binds in it. -/
theorem read?_write_bound {text : String} {v : Value} (h : read? text = some v) :
    read? (String.ofList (write v)) = some v ∧
    ∀ limits pattern bound, Limits.destructure limits pattern v = .ok (some bound) →
      ∀ entry ∈ bound.entries, read? (String.ofList (write entry.2)) = some entry.2 := by
  have readable := readable_of_read? h
  refine ⟨read?_write readable, ?_⟩
  intro limits pattern bound result entry member
  rw [Limits.destructure_eq_bind] at result
  obtain ⟨p, -, matched⟩ := bind_eq_ok_iff.mp result
  have described := p.destructure_describes v
  rw [matched] at described
  exact read?_write (described.1.bound (Readable.hereditary 0) readable entry member)

/-- The sign of the zero and the kinds of the two tens are kept. -/
theorem read?_write_bound_mixed :
    read? " [-0, 10.0, [10, \"\\u000A\"]]" = some (.list [.number (.float (.finite true 0)),
        .number (.float (Binary64.ofDecimal ⟨false, 10, 0⟩)), .list [.number (.int 10), .str "\n"]]) ∧
      Limits.unlimited.destructure "(a:rest)" (.list [.number (.float (.finite true 0)),
          .number (.float (Binary64.ofDecimal ⟨false, 10, 0⟩)),
          .list [.number (.int 10), .str "\n"]]) =
        .ok (some ⟨[("a", .number (.float (.finite true 0))),
          ("rest", .list [.number (.float (Binary64.ofDecimal ⟨false, 10, 0⟩)),
            .list [.number (.int 10), .str "\n"]])]⟩) ∧
      read? (String.ofList (write (.list [.number (.float (Binary64.ofDecimal ⟨false, 10, 0⟩)),
          .list [.number (.int 10), .str "\n"]]))) =
        some (.list [.number (.float (Binary64.ofDecimal ⟨false, 10, 0⟩)),
          .list [.number (.int 10), .str "\n"]]) := by
  have scanned : tokens? " [-0, 10.0, [10, \"\\u000A\"]]".toList = some [.opening,
      .number (.float (.finite true 0)), .comma,
      .number (.float (Binary64.ofDecimal ⟨false, 10, 0⟩)), .comma, .opening, .number (.int 10),
      .comma, .str "\n", .closing, .closing] := by
    decide +kernel
  have found : read? " [-0, 10.0, [10, \"\\u000A\"]]" = some (.list [
      .number (.float (.finite true 0)), .number (.float (Binary64.ofDecimal ⟨false, 10, 0⟩)),
      .list [.number (.int 10), .str "\n"]]) := by
    simp only [read?, scanned]
    rfl
  have head : Pattern.read ['a'] = .ok (.ident "a") := Pattern.read_atom (@Atom.Spells.word ['a'] rfl)
  have tail : Pattern.read ['r', 'e', 's', 't'] = .ok (.ident "rest") :=
    Pattern.read_atom (@Atom.Spells.word ['r', 'e', 's', 't'] rfl)
  have compiled : Limits.unlimited.compile "(a:rest)" = .ok (.cons [.ident "a"] (.ident "rest")) :=
    (Pattern.read_cons_of_readEach (List.cons_ne_nil _ _) (.cons head .nil) tail).mpr
      ⟨by decide, by decide⟩
  have matched : ∀ u v w : Value, Limits.unlimited.destructure "(a:rest)" (.list [u, v, w]) =
      .ok (some ⟨[("a", u), ("rest", .list [v, w])]⟩) := by
    intro u v w
    rw [Limits.destructure_eq_bind, compiled]
    rfl
  have last := (read?_write_bound found).2 _ _ _ (matched _ _ _) _
    (List.mem_cons_of_mem _ List.mem_cons_self)
  exact ⟨found, matched _ _ _, last⟩

end Destructure.Json
