import Destructure.CommandLine.Arguments
import Destructure.Proofs.Decimal
import Destructure.Proofs.Sequencing

/-! # What can be asked for

The requests that arguments can make are those with a bound on the depth, with bounds below
`2 ^ 64`, with a name for the file if the value is in one, and with a pattern at least.  Each of them
is made by arguments that give every option with its value attached and the patterns after the end
of the options.  So every text can be asked for as a pattern.
-/

namespace Destructure.CommandLine

/-! ## The requests that arguments make -/

/-- Options as they can be given. -/
structure Options.Admissible (o : Options) : Prop where
  maxDepth : ∀ n, o.maxDepth = some n → n < UInt64.size
  maxLength : ∀ n, o.maxLength = some n → n < UInt64.size
  file : ∀ path, o.file = some path → path ≠ ""

theorem Argument.natural?_lt {text : String} {n : Nat} (h : natural? text = some n) :
    n < UInt64.size := by
  simp only [natural?, Option.ite_none_right_eq_some, Option.some.injEq] at h
  obtain ⟨-, small, rfl⟩ := h
  exact small

theorem Options.Admissible.set? {o o' : Options} {setting : Setting} {text : String}
    (admissible : o.Admissible) (h : o.set? setting text = some o') : o'.Admissible := by
  cases setting with
  | maxDepth =>
      simp only [Options.set?, Option.ite_none_left_eq_some, Option.map_eq_some_iff] at h
      obtain ⟨-, n, read, rfl⟩ := h
      refine ⟨?_, admissible.maxLength, admissible.file⟩
      rintro m ⟨⟩
      exact Argument.natural?_lt read
  | maxLength =>
      simp only [Options.set?, Option.ite_none_left_eq_some, Option.map_eq_some_iff] at h
      obtain ⟨-, n, read, rfl⟩ := h
      refine ⟨admissible.maxDepth, ?_, admissible.file⟩
      rintro m ⟨⟩
      exact Argument.natural?_lt read
  | value =>
      simp only [Options.set?, Option.ite_none_left_eq_some, Option.some.injEq] at h
      obtain ⟨-, rfl⟩ := h
      exact ⟨admissible.maxDepth, admissible.maxLength, admissible.file⟩
  | file =>
      simp only [Options.set?, Option.ite_none_left_eq_some, Option.some.injEq, not_or] at h
      obtain ⟨⟨-, nonempty⟩, rfl⟩ := h
      refine ⟨admissible.maxDepth, admissible.maxLength, ?_⟩
      rintro path ⟨⟩ rfl
      exact nonempty rfl

namespace Progress

/-- Holds when all options so far are as they can be given. -/
structure Admissible (p : Progress) : Prop where
  shared : p.shared.Admissible
  own : p.own.Admissible

namespace Admissible

variable {p : Progress}

theorem start : ({} : Progress).Admissible :=
  ⟨⟨nofun, nofun, nofun⟩, ⟨nofun, nofun, nofun⟩⟩

theorem options (h : p.Admissible) : p.options.Admissible := by
  rw [Progress.options]
  split
  · exact h.shared
  · exact h.own

theorem withOptions (h : p.Admissible) {o : Options} (ho : o.Admissible) :
    (p.withOptions o).Admissible := by
  rw [Progress.withOptions]
  split
  · exact ⟨ho, h.own⟩
  · exact ⟨h.shared, ho⟩

end Admissible

/-- What an argument leads to: options as they can be given, or an end without a request. -/
inductive Leads : Except Intent Progress → Prop where
  | on {p : Progress} (admissible : p.Admissible) : Leads (.ok p)
  | help : Leads (.error .help)
  | version (long : Bool) : Leads (.error (.version long))
  | refused : Leads (.error .refused)

namespace Admissible

variable {p : Progress}

theorem takeWord (h : p.Admissible) (text : String) : Leads (p.takeWord text) := by
  have unchanged : ∀ level patterns, ({ p with level, patterns } : Progress).Admissible :=
    fun _ _ => ⟨h.shared, h.own⟩
  rw [Progress.takeWord]
  split
  · split
    · exact .on (unchanged _ _)
    · split
      · exact .on (unchanged _ _)
      · exact .refused
  · split
    · exact .on (unchanged _ _)
    · exact .refused
  · split
    · exact .on (unchanged _ _)
    · exact .refused
  · exact .refused

theorem assign (h : p.Admissible) (setting : Setting) (text : String) :
    Leads (p.assign setting text) := by
  rw [Progress.assign]
  split
  · rename_i o updated
    have given := h.withOptions (h.options.set? updated)
    exact .on ⟨given.shared, given.own⟩
  · exact .refused

theorem takeSetting (h : p.Admissible) (setting : Setting) (attached : Option String) :
    Leads (p.takeSetting setting attached) := by
  cases attached with
  | some text => exact h.assign setting text
  | none => exact .on ⟨h.shared, h.own⟩

theorem takeLong (h : p.Admissible) (name : String) (attached : Option String) :
    Leads (p.takeLong name attached) := by
  unfold Progress.takeLong
  split
  · exact h.takeSetting _ _
  · exact h.takeSetting _ _
  · split
    · exact .refused
    · have given := h.options
      exact .on (h.withOptions ⟨given.maxDepth, given.maxLength, given.file⟩)
  · exact .help
  · split
    · exact .version true
    · exact h.takeSetting _ _
    · exact h.takeSetting _ _
    · exact .refused

theorem takeShort (first : Char) : Leads (p.takeShort first) := by
  rw [Progress.takeShort]
  split
  · exact .help
  · split
    · exact .version false
    · exact .refused

theorem take (h : p.Admissible) (text : String) : Leads (p.take text) := by
  simp only [Progress.take]
  split
  · exact h.takeWord text
  · exact h.takeWord text
  · split
    · exact h.assign _ text
    · exact .refused
  · split
    · split
      · exact .refused
      · exact .on ⟨h.shared, h.own⟩
    · exact h.takeLong _ _
    · split
      · exact h.takeWord text
      · exact takeShort _
    · exact h.takeWord text

theorem run (h : p.Admissible) (arguments : List String) :
    Leads (arguments.foldlM Progress.take p) := by
  induction arguments generalizing p with
  | nil => exact .on h
  | cons text arguments ih =>
      rw [List.foldlM_cons]
      have leads := h.take text
      generalize p.take text = result at leads ⊢
      cases leads with
      | on admissible => exact ih admissible
      | help => exact .help
      | version long => exact .version long
      | refused => exact .refused

end Admissible

end Progress

structure Request.Admissible (r : Request) : Prop where
  patterns : r.command ≠ .firstMatch []
  maxDepth : ∃ n, r.limits.maxDepth = some n ∧ n < UInt64.size
  maxLength : ∀ n, r.limits.maxLength = some n → n < UInt64.size
  file : r.source ≠ .file ""

namespace Progress.Admissible

variable {p : Progress}

theorem maxDepth_lt (h : p.Admissible) : ∃ n, p.limits.maxDepth = some n ∧ n < UInt64.size := by
  refine ⟨_, rfl, ?_⟩
  cases own : p.own.maxDepth with
  | some n => exact h.own.maxDepth n own
  | none =>
      cases shared : p.shared.maxDepth with
      | some n => exact h.shared.maxDepth n shared
      | none => decide

theorem maxLength_lt (h : p.Admissible) : ∀ n, p.limits.maxLength = some n → n < UInt64.size := by
  intro n bound
  obtain own | ⟨-, shared⟩ := Option.or_eq_some_iff.mp (Option.orElse_eq_or.symm.trans bound)
  · exact h.own.maxLength n own
  · exact h.shared.maxLength n shared

theorem source_ne (h : p.Admissible) {source : Source} (named : source? p.own = some source) :
    source ≠ .file "" := by
  rintro rfl
  rw [source?] at named
  split at named
  · cases named
  · rename_i path _ file
    cases named
    exact h.own.file _ file rfl
  · cases named
  · cases named

theorem intent (h : p.Admissible) {r : Request} (asked : p.intent = .run r) : r.Admissible := by
  rw [Progress.intent] at asked
  split at asked
  · cases asked
  · rename_i source _ _ named _
    cases asked
    exact ⟨nofun, h.maxDepth_lt, h.maxLength_lt, h.source_ne named⟩
  · rename_i source _ _ _ _ named _
    cases asked
    exact ⟨nofun, h.maxDepth_lt, h.maxLength_lt, h.source_ne named⟩
  · cases asked

end Progress.Admissible

theorem Request.admissible_of_ofArguments {arguments : List String} {r : Request}
    (asked : Intent.ofArguments arguments = .run r) : r.Admissible := by
  have leads := Progress.Admissible.start.run arguments
  rw [Intent.ofArguments] at asked
  split at asked
  · rename_i ending
    rw [ending] at leads
    subst asked
    cases leads
  · rename_i p progress
    rw [progress] at leads
    obtain admissible | _ := leads
    exact admissible.intent asked

/-! ## Arguments that make a request -/

theorem Argument.natural?_digits {n : Nat} (small : n < UInt64.size) :
    natural? (String.ofList (Decimal.digits n)) = some n := by
  have digits : ∀ c ∈ Decimal.digits n, c.isDigit = true := fun _ => Decimal.isDigit_of_mem_digits
  have unsigned : (Decimal.digits n).head? ≠ some '+' := by
    intro sign
    exact absurd (digits _ (List.mem_of_head? sign)) (by decide)
  have some_digit : (!(Decimal.digits n).isEmpty) = true := by
    rw [List.isEmpty_eq_false_iff.mpr (Decimal.digits_ne_nil n), Bool.not_false]
  simp only [natural?, String.toList_ofList, if_neg unsigned, Decimal.ofDigits_digits]
  rw [if_pos ⟨some_digit, List.all_eq_true.mpr digits⟩, if_pos small]

def Setting.name : Setting → String
  | maxDepth => "max-depth"
  | maxLength => "max-len"
  | value => "value"
  | file => "file"

/-- The argument that gives an option its value. -/
def Setting.argument (setting : Setting) (text : String) : String :=
  "--" ++ setting.name ++ "=" ++ text

theorem Setting.ofText_argument (setting : Setting) (text : String) :
    Argument.ofText (setting.argument text) = .long setting.name (some text) := by
  have spelled : (setting.argument text).toList =
      '-' :: '-' :: (setting.name.toList ++ '=' :: text.toList) := by
    simp [argument]
  have plain : ∀ c ∈ setting.name.toList, (c != '=') = true :=
    List.all_eq_true.mp (by cases setting <;> rfl)
  have name_part : (setting.name.toList ++ '=' :: text.toList).takeWhile (· != '=') =
      setting.name.toList := by
    rw [List.takeWhile_append_of_pos plain]
    exact List.append_nil _
  have value_part : (setting.name.toList ++ '=' :: text.toList).dropWhile (· != '=') =
      '=' :: text.toList := by
    rw [List.dropWhile_append_of_pos plain]
    rfl
  obtain ⟨c, rest, body⟩ : ∃ c rest, setting.name.toList ++ '=' :: text.toList = c :: rest :=
    List.exists_cons_of_ne_nil (List.append_ne_nil_of_right_ne_nil _ (List.cons_ne_nil _ _))
  rw [body] at spelled name_part value_part
  simp only [Argument.ofText, spelled, name_part, value_part, String.ofList_toList]

namespace Progress

variable {p : Progress} {name : CommandName}

/-- Past the name of a command, before the end of the options. -/
structure AtOptions (p : Progress) (name : CommandName) : Prop where
  level : p.level = .command name
  awaiting : p.awaiting = none
  wordsOnly : p.wordsOnly = false

theorem takeLong_name (h : p.level = .command name) (setting : Setting) (text : String) :
    p.takeLong setting.name (some text) = p.assign setting text := by
  cases setting <;> simp [takeLong, takeSetting, Setting.name, h]

theorem AtOptions.take_argument (h : p.AtOptions name) {setting : Setting} {text : String}
    {o : Options} (set : p.own.set? setting text = some o) :
    p.take (setting.argument text) = .ok { p with own := o } := by
  calc p.take (setting.argument text)
    _ = p.takeLong setting.name (some text) := by
      simp only [take, h.level, h.wordsOnly, h.awaiting, Setting.ofText_argument]
    _ = p.assign setting text := takeLong_name h.level setting text
    _ = .ok { p with own := o } := by
      simp only [assign, options, withOptions, h.level, set, h.awaiting]

theorem AtOptions.run_arguments (h : p.AtOptions name) {settings : List (Setting × String)}
    {o : Options} (set : settings.foldlM (fun o s => o.set? s.1 s.2) p.own = some o) :
    (settings.map fun s => s.1.argument s.2).foldlM take p = .ok { p with own := o } := by
  induction settings generalizing p with
  | nil =>
      cases set
      rfl
  | cons first settings ih =>
      simp only [List.foldlM_cons, Option.bind_eq_bind, Option.bind_eq_some_iff] at set
      obtain ⟨next, given, others⟩ := set
      rw [List.map_cons, List.foldlM_cons, h.take_argument given]
      have still : ({ p with own := next } : Progress).AtOptions name :=
        ⟨h.level, h.awaiting, h.wordsOnly⟩
      exact ih still others

theorem run_patterns (level : p.level = .command .firstMatch) (words : p.wordsOnly = true)
    (patterns : List String) :
    patterns.foldlM take p = .ok { p with patterns := patterns.reverse ++ p.patterns } := by
  induction patterns generalizing p with
  | nil => rfl
  | cons pattern patterns ih =>
      have taken : p.take pattern = .ok { p with patterns := pattern :: p.patterns } := by
        simp only [take, takeWord, admitsPattern, level, words, if_true]
      rw [List.foldlM_cons, taken, List.reverse_cons, List.append_assoc, List.singleton_append]
      exact ih level words

end Progress

def CommandName.text : CommandName → String
  | extract => "extract"
  | firstMatch => "match"

theorem CommandName.ofText_text (name : CommandName) :
    Argument.ofText name.text = .word name.text := by
  cases name <;> rfl

theorem CommandName.ofText?_text (name : CommandName) : ofText? name.text = some name := by
  cases name <;> rfl

theorem Progress.take_name (name : CommandName) :
    ({} : Progress).take name.text = .ok { level := .command name } := by
  rw [take, name.ofText_text]
  simp only [takeWord, name.ofText?_text]

namespace Command

def name : Command → CommandName
  | extract _ => .extract
  | firstMatch _ => .firstMatch

def patterns : Command → List String
  | extract pattern => [pattern]
  | firstMatch patterns => patterns

end Command

namespace Request

variable {r : Request}

def options (r : Request) : Options where
  maxDepth := r.limits.maxDepth
  maxLength := r.limits.maxLength
  value := match r.source with
    | .inline text => some text
    | _ => none
  file := match r.source with
    | .file path => some path
    | _ => none

/-- The options of a request as they are given. -/
def settings (r : Request) : List (Setting × String) :=
  (r.limits.maxDepth.toList.map fun n => (.maxDepth, String.ofList (Decimal.digits n))) ++
  (r.limits.maxLength.toList.map fun n => (.maxLength, String.ofList (Decimal.digits n))) ++
  match r.source with
  | .inline text => [(.value, text)]
  | .file path => [(.file, path)]
  | .standardInput => []

/-- Arguments that make a request. -/
def arguments (r : Request) : List String :=
  r.command.name.text ::
    ((r.settings.map fun s => s.1.argument s.2) ++ "--" :: r.command.patterns)

theorem Admissible.set_settings (h : r.Admissible) :
    r.settings.foldlM (fun o s => o.set? s.1 s.2) {} = some r.options := by
  have depth : (r.limits.maxDepth.toList.map fun n =>
      (Setting.maxDepth, String.ofList (Decimal.digits n))).foldlM
        (fun (o : Options) s => o.set? s.1 s.2) {} = some { maxDepth := r.limits.maxDepth } := by
    obtain ⟨n, bound, small⟩ := h.maxDepth
    simp [bound, Options.set?, Argument.natural?_digits small]
  have length : (r.limits.maxLength.toList.map fun n =>
      (Setting.maxLength, String.ofList (Decimal.digits n))).foldlM
        (fun (o : Options) s => o.set? s.1 s.2) { maxDepth := r.limits.maxDepth } =
      some { maxDepth := r.limits.maxDepth, maxLength := r.limits.maxLength } := by
    cases bound : r.limits.maxLength with
    | none => rfl
    | some n => simp [Options.set?, Argument.natural?_digits (h.maxLength n bound)]
  simp only [settings, List.foldlM_append, depth, length, Option.bind_eq_bind, Option.bind_some]
  have named := h.file
  rw [options]
  cases source : r.source with
  | inline text => rfl
  | file path =>
      rw [source] at named
      have nonempty : path ≠ "" := fun empty => named (congrArg Source.file empty)
      simp [Options.set?, nonempty]
  | standardInput => rfl

def progress (r : Request) : Progress where
  level := .command r.command.name
  own := r.options
  patterns := r.command.patterns.reverse
  wordsOnly := true

theorem Admissible.run_arguments (h : r.Admissible) :
    r.arguments.foldlM Progress.take {} = .ok r.progress := by
  have atOptions : ({ level := .command r.command.name } : Progress).AtOptions r.command.name :=
    ⟨rfl, rfl, rfl⟩
  have separated : ({ level := .command r.command.name, own := r.options } : Progress).take "--" =
      .ok { level := .command r.command.name, own := r.options, wordsOnly := true } := by
    cases r.command <;> rfl
  rw [arguments, List.foldlM_cons, Progress.take_name]
  -- The name has been taken, so only the fold over the other arguments is left.
  change List.foldlM _ _ _ = _
  rw [List.foldlM_append, atOptions.run_arguments h.set_settings]
  change List.foldlM _ _ _ = _
  rw [List.foldlM_cons, separated, progress]
  cases r.command with
  | extract pattern => rfl
  | firstMatch patterns =>
      refine (Progress.run_patterns rfl rfl patterns).trans ?_
      rw [List.append_nil]
      rfl

theorem Admissible.limits_progress (h : r.Admissible) : r.progress.limits = r.limits := by
  obtain ⟨n, bound, -⟩ := h.maxDepth
  have kept : ∀ m : Option Nat, (m <|> none) = m := fun m => by cases m <;> rfl
  rw [Progress.limits, progress, options]
  simp only [kept, bound, Option.getD_some]
  exact congrArg (Limits.mk · _) bound.symm

theorem Admissible.intent_progress (h : r.Admissible) : r.progress.intent = .run r := by
  have source : Progress.source? r.progress.own = some r.source := by
    rw [progress, options, Progress.source?]
    cases r.source <;> rfl
  have listed : r.progress.patterns.reverse = r.command.patterns := List.reverse_reverse _
  rw [Progress.intent, source, listed, h.limits_progress]
  have asked := h.patterns
  obtain ⟨command, place, limits⟩ := r
  cases command with
  | extract pattern => rfl
  | firstMatch patterns =>
      cases patterns with
      | nil => exact absurd rfl asked
      | cons pattern patterns => rfl

theorem Admissible.ofArguments_arguments (h : r.Admissible) :
    Intent.ofArguments r.arguments = .run r := by
  rw [Intent.ofArguments, h.run_arguments]
  exact h.intent_progress

/-- The requests that arguments can make. -/
theorem exists_ofArguments_iff :
    (∃ arguments, Intent.ofArguments arguments = .run r) ↔ r.Admissible :=
  ⟨fun ⟨_, asked⟩ => admissible_of_ofArguments asked, fun h => ⟨_, h.ofArguments_arguments⟩⟩

end Request

end Destructure.CommandLine
