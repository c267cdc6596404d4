import Destructure.CommandLine.Intent
import Destructure.Proofs.CommandLine.Arguments
import Destructure.Proofs.Dispatcher

/-! # The two commands agree

What the command for several patterns leaves behind can be told from what the command for one
pattern leaves behind for each of them: it follows the first that does not say `false`, or reports
that there is none.  A value that is refused is refused alike.
-/

namespace Destructure.CommandLine

def readValue : Except Failure String → Except Failure Value
  | .error f => .error f
  | .ok text =>
    match Json.read? text with
    | none => .error .invalidValue
    | some value => .ok value

/-- The value is read first, and whether it can be read is independent of the command. -/
theorem Request.run_eq (r : Request) (text : Except Failure String) :
    r.run text = match readValue text with
      | .error f => .failure f
      | .ok value => r.command.run r.limits value := by
  cases text with
  | error f => rfl
  | ok text =>
      rw [Request.run, readValue]
      cases Json.read? text <;> rfl

/-- The exit code of a mismatch and `false` on standard output. -/
def Outcome.SaysFalse (o : Outcome) : Prop := o.exitCode = 1 ∧ o.output = "false\n"

theorem Outcome.answer_eq (line : List Char) :
    answer line = ⟨0, String.ofList line ++ "\n", none⟩ := by
  rw [answer, String.ofList_append]

/-- The line of a report, given the text of the bindings. -/
def reportLine (arm : Nat) (pattern bindings : String) : String :=
  "\x7b\"arm\":" ++ toString arm ++ ",\"pattern\":" ++ String.ofList (Json.encode pattern.toList) ++
    ",\"bindings\":" ++ bindings ++ "\x7d"

theorem ofList_report (arm : Nat) (pattern : String) (bound : Bindings) :
    String.ofList (report arm pattern bound) =
      reportLine arm pattern (String.ofList bound.toJson) := by
  rw [← String.toList_inj, String.toList_ofList]
  simp [report, reportLine, Json.writeObject, Json.encode, Json.encodeChar, Decimal.digits]

variable {limits : Limits} {value : Value}

theorem saysFalse_extract_iff {pattern : String} :
    ((Command.extract pattern).run limits value).SaysFalse ↔
      limits.destructure pattern value = .ok none := by
  rw [Command.run]
  cases limits.destructure pattern value with
  | error e => simp [Outcome.SaysFalse, Outcome.failure]
  | ok outcome =>
      cases outcome with
      | none => simp [Outcome.SaysFalse, Outcome.mismatch]
      | some bound => simp [Outcome.SaysFalse, Outcome.answer]

def reportArm : String × Nat → Arm (List Char)
  | (pattern, arm) => ⟨pattern, .call (report arm pattern)⟩

theorem reporter_eq (limits : Limits) (patterns : List String) :
    reporter limits patterns = ⟨limits, patterns.zipIdx.map reportArm⟩ := by
  rw [← Dispatcher.ofArms_eq, Dispatcher.ofArms, List.foldl_map]
  rfl

theorem unfit_reportArms {patterns : List String} (first : Nat)
    (unfit : ∀ pattern ∈ patterns, limits.destructure pattern value = .ok none) :
    Dispatcher.Unfit limits value ((patterns.zipIdx first).map reportArm) := by
  intro arm member
  obtain ⟨⟨pattern, i⟩, listed, rfl⟩ := List.mem_map.mp member
  exact unfit pattern (List.fst_mem_of_mem_zipIdx listed)

variable {patterns : List String}

theorem firstMatch_of_unfit
    (unfit : ∀ pattern ∈ patterns, limits.destructure pattern value = .ok none) :
    (Command.firstMatch patterns).run limits value =
      ⟨1, "", some "non-exhaustive patterns"⟩ := by
  have exhausted : (reporter limits patterns).dispatch value = .error .nonExhaustive := by
    rw [reporter_eq, Dispatcher.dispatch, Dispatcher.tryArms_eq_nonExhaustive_iff]
    exact unfit_reportArms 0 unfit
  rw [Command.run, exhausted]
  rfl

theorem dispatch_reporter {i : Nat} (h : i < patterns.length)
    (unfit : ∀ pattern ∈ patterns.take i, limits.destructure pattern value = .ok none)
    {result : Except MatchError (List Char)}
    (decides : (reportArm (patterns[i], i)).Decides limits value result) :
    (reporter limits patterns).dispatch value = result := by
  have split : patterns.take i ++ patterns[i] :: patterns.drop (i + 1) = patterns := by
    rw [List.getElem_cons_drop, List.take_append_drop]
  have place : (patterns.take i).length = i := List.length_take_of_le (Nat.le_of_lt h)
  have arms := congrArg (fun patterns => patterns.zipIdx.map reportArm) split
  simp only [List.zipIdx_append, List.map_append, place, Nat.zero_add, List.zipIdx_cons,
    List.map_cons] at arms
  rw [reporter_eq, Dispatcher.dispatch, ← arms]
  exact Dispatcher.tryArms_of_decides (unfit_reportArms 0 unfit) decides _

theorem extract_of_fits {pattern : String} {bound : Bindings}
    (fits : limits.destructure pattern value = .ok (some bound)) :
    (Command.extract pattern).run limits value =
      ⟨0, String.ofList bound.toJson ++ "\n", none⟩ := by
  rw [Command.run, fits]
  exact Outcome.answer_eq _

theorem firstMatch_of_fits {i : Nat} (h : i < patterns.length) {bound : Bindings}
    (unfit : ∀ pattern ∈ patterns.take i, limits.destructure pattern value = .ok none)
    (fits : limits.destructure patterns[i] value = .ok (some bound)) :
    (Command.firstMatch patterns).run limits value =
      ⟨0, reportLine i patterns[i] (String.ofList bound.toJson) ++ "\n", none⟩ := by
  rw [Command.run, dispatch_reporter h unfit (.call rfl fits), ← ofList_report]
  exact Outcome.answer_eq _

theorem extract_of_error {pattern : String} {e : MatchError}
    (failed : limits.destructure pattern value = .error e) :
    (Command.extract pattern).run limits value = ⟨1, "", some e.message⟩ := by
  rw [Command.run, failed]
  rfl

theorem firstMatch_of_error {i : Nat} (h : i < patterns.length) {e : MatchError}
    (unfit : ∀ pattern ∈ patterns.take i, limits.destructure pattern value = .ok none)
    (failed : limits.destructure patterns[i] value = .error e) :
    (Command.firstMatch patterns).run limits value = ⟨1, "", some e.message⟩ := by
  rw [Command.run, dispatch_reporter h unfit (.error failed)]
  rfl

/-- Whatever several patterns are asked for, each can be asked for alone, with the same source and
the same limits.  A refused value is refused by all of them with one message.  Otherwise let `E i` be
what the pattern at place `i` leaves behind alone.  The first that does not say `false` decides: its
bindings are reported with its place and its text, or its error is repeated.  If all say `false`, no
pattern fits.  And `false` means that the pattern was read and the value does not fit it. -/
theorem commands_agree {matching : List String} {source : Source}
    (asked : Intent.ofArguments matching = .run ⟨.firstMatch patterns, source, limits⟩) :
    (∀ pattern, ∃ arguments,
      Intent.ofArguments arguments = .run ⟨.extract pattern, source, limits⟩) ∧
    ∀ extracting : Fin patterns.length → List String,
      (∀ i, Intent.ofArguments (extracting i) = .run ⟨.extract patterns[i], source, limits⟩) →
      ∀ text : Except Failure String,
        let M := (Intent.ofArguments matching).outcome text
        let E := fun i => (Intent.ofArguments (extracting i)).outcome text
        (∀ f, readValue text = .error f →
          (∀ i, E i = ⟨1, "", some f.message⟩) ∧ M = ⟨1, "", some f.message⟩) ∧
        ∀ value, readValue text = .ok value →
          (∀ i, (E i).SaysFalse ↔ limits.destructure patterns[i] value = .ok none) ∧
          (∀ i, (∀ j < i, (E j).SaysFalse) → ¬(E i).SaysFalse →
            (∃ bound, limits.destructure patterns[i] value = .ok (some bound) ∧
              E i = ⟨0, String.ofList bound.toJson ++ "\n", none⟩ ∧
              M = ⟨0, reportLine i patterns[i] (String.ofList bound.toJson) ++ "\n", none⟩) ∨
            ∃ e, limits.destructure patterns[i] value = .error e ∧
              E i = ⟨1, "", some e.message⟩ ∧ M = ⟨1, "", some e.message⟩) ∧
          ((∀ i, (E i).SaysFalse) → M = ⟨1, "", some "non-exhaustive patterns"⟩) := by
  constructor
  · intro pattern
    have given := Request.admissible_of_ofArguments asked
    exact Request.exists_ofArguments_iff.mpr ⟨nofun, given.maxDepth, given.maxLength, given.file⟩
  · intro extracting requested text
    simp only [asked, requested, Intent.outcome, Request.run_eq]
    constructor
    · intro f refused
      rw [refused]
      exact ⟨fun _ => rfl, rfl⟩
    · intro value read
      simp only [read, saysFalse_extract_iff]
      refine ⟨fun _ => trivial, ?_, ?_⟩
      · intro i unfit fits
        -- The indices of the statement are turned into the texts that a list of arms knows.
        have before : ∀ pattern ∈ patterns.take i, limits.destructure pattern value = .ok none := by
          intro pattern member
          obtain ⟨j, small, rfl⟩ := List.mem_take_iff_getElem.mp member
          exact unfit ⟨j, (Nat.lt_min.mp small).2⟩ (Nat.lt_min.mp small).1
        cases outcome : limits.destructure patterns[i] value with
        | error e =>
            exact .inr ⟨e, rfl, extract_of_error outcome, firstMatch_of_error i.isLt before outcome⟩
        | ok result =>
            cases result with
            | none => exact absurd outcome fits
            | some bound =>
                exact .inl ⟨bound, rfl, extract_of_fits outcome,
                  firstMatch_of_fits i.isLt before outcome⟩
      · intro unfit
        refine firstMatch_of_unfit fun pattern member => ?_
        obtain ⟨i, small, rfl⟩ := List.mem_iff_getElem.mp member
        exact unfit ⟨i, small⟩

/-- The second pattern decides, and the report holds the line that it prints alone. -/
theorem commands_agree_second_pattern :
    Intent.ofArguments ["match", "[]", "(x:xs)", "--value", "[1]"] =
      .run ⟨.firstMatch ["[]", "(x:xs)"], .inline "[1]", ⟨some 256, none⟩⟩ ∧
    (Intent.ofArguments ["extract", "(x:xs)", "--value=[1]"]).outcome (.ok "[1]") =
      ⟨0, "\x7b\"x\":1,\"xs\":[]\x7d" ++ "\n", none⟩ ∧
    (Intent.ofArguments ["match", "[]", "(x:xs)", "--value", "[1]"]).outcome (.ok "[1]") =
      ⟨0, reportLine 1 "(x:xs)" "\x7b\"x\":1,\"xs\":[]\x7d" ++ "\n", none⟩ := by
  have asked : Intent.ofArguments ["match", "[]", "(x:xs)", "--value", "[1]"] =
      .run ⟨.firstMatch ["[]", "(x:xs)"], .inline "[1]", ⟨some 256, none⟩⟩ := by
    decide +kernel
  have requested : ∀ i : Fin 2, Intent.ofArguments ["extract", ["[]", "(x:xs)"][i], "--value=[1]"] =
      .run ⟨.extract ["[]", "(x:xs)"][i], .inline "[1]", ⟨some 256, none⟩⟩ := by
    decide +kernel
  have first : (Intent.ofArguments ["extract", "[]", "--value=[1]"]).outcome (.ok "[1]") =
      .mismatch := by
    decide +kernel
  have second : (Intent.ofArguments ["extract", "(x:xs)", "--value=[1]"]).outcome (.ok "[1]") =
      ⟨0, "\x7b\"x\":1,\"xs\":[]\x7d" ++ "\n", none⟩ := by
    decide +kernel
  refine ⟨asked, second, ?_⟩
  obtain ⟨-, agree⟩ := commands_agree asked
  obtain ⟨refused, answered⟩ := agree _ requested (.ok "[1]")
  cases read : readValue (.ok "[1]") with
  | error f => cases second.symm.trans ((refused f read).1 1)
  | ok value =>
      have skipped : ∀ j : Fin 2, j < 1 →
          ((Intent.ofArguments ["extract", ["[]", "(x:xs)"][j], "--value=[1]"]).outcome
            (.ok "[1]")).SaysFalse := by
        intro j earlier
        obtain rfl : j = 0 := by omega
        exact first ▸ ⟨rfl, rfl⟩
      have fits : ¬((Intent.ofArguments ["extract", "(x:xs)", "--value=[1]"]).outcome
          (.ok "[1]")).SaysFalse := by
        rw [second]
        exact fun saysFalse => absurd saysFalse.1 (by decide)
      obtain ⟨bound, -, alone, together⟩ | ⟨e, -, alone, -⟩ :=
        (answered value read).2.1 1 skipped fits
      · have printed := congrArg Outcome.output (second.symm.trans alone)
        rw [String.append_left_inj] at printed
        rwa [← printed] at together
      · cases second.symm.trans alone

end Destructure.CommandLine
