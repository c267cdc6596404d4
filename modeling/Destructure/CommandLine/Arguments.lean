import Destructure.CommandLine.Argument
import Destructure.CommandLine.Request

/-! # Reading the arguments

The arguments are taken from left to right.  Before the name of a command stand options that every
command knows; after it stand the same options, the options of the command, and its patterns.  What
follows the end of the options is a pattern, whatever its look.

An option may be given once at each of the two levels, and what is given after the command counts.
Asking for help or for the version ends the reading, but an error before it comes first.
-/

namespace Destructure.CommandLine

inductive Intent where
  | run (request : Request)
  | help
  /-- Asks for the version, which the long form gives together with the build. -/
  | version (long : Bool)
  /-- The arguments make no request. -/
  | refused
  deriving DecidableEq, Repr

def defaultMaxDepth : Nat := 256

/-- The options that take a value. -/
inductive Setting where
  | maxDepth
  | maxLength
  | value
  | file
  deriving DecidableEq, Repr

inductive CommandName where
  | extract
  | firstMatch
  deriving DecidableEq, Repr

def CommandName.ofText? : String → Option CommandName
  | "extract" => some extract
  | "match" => some firstMatch
  | _ => none

/-- How far the reading has come. -/
inductive Level where
  /-- No command has been named. -/
  | root
  /-- A command has been named. -/
  | command (name : CommandName)
  /-- Help has been asked for, on a topic or in general. -/
  | help (topic : Option String)
  deriving DecidableEq, Repr

/-- The options given at one level. -/
structure Options where
  /-- Asks for a log, which is no part of the outcome. -/
  debug : Bool := false
  maxDepth : Option Nat := none
  maxLength : Option Nat := none
  value : Option String := none
  file : Option String := none
  deriving DecidableEq, Repr

/-- Sets an option that has not been set before to a value that it admits. -/
def Options.set? (o : Options) (setting : Setting) (text : String) : Option Options :=
  match setting with
  | .maxDepth =>
    if o.maxDepth.isSome then none
    else (Argument.natural? text).map fun n => { o with maxDepth := some n }
  | .maxLength =>
    if o.maxLength.isSome then none
    else (Argument.natural? text).map fun n => { o with maxLength := some n }
  | .value => if o.value.isSome then none else some { o with value := some text }
  | .file => if o.file.isSome ∨ text.isEmpty then none else some { o with file := some text }

/-- What has been read so far. -/
structure Progress where
  level : Level := .root
  /-- The options before the command. -/
  shared : Options := {}
  /-- The options after the command. -/
  own : Options := {}
  /-- The option whose value must come next. -/
  awaiting : Option Setting := none
  /-- The patterns in reverse order. -/
  patterns : List String := []
  /-- Holds after the end of the options. -/
  wordsOnly : Bool := false
  deriving DecidableEq, Repr

namespace Progress

/-- Holds where one more pattern may come. -/
def admitsPattern (p : Progress) : Bool :=
  match p.level with
  | .command .extract => p.patterns.isEmpty
  | .command .firstMatch => true
  | _ => false

/-- Takes a pattern or, at the root, the name of a command. -/
def takeWord (p : Progress) (text : String) : Except Intent Progress :=
  match p.level with
  | .root =>
    match CommandName.ofText? text with
    | some name => .ok { p with level := .command name }
    | none => if text = "help" then .ok { p with level := .help none } else .error .refused
  | .command _ =>
    if p.admitsPattern then .ok { p with patterns := text :: p.patterns } else .error .refused
  | .help none =>
    if text = "help" ∨ (CommandName.ofText? text).isSome then
      .ok { p with level := .help (some text) }
    else
      .error .refused
  | .help (some _) => .error .refused

/-- The options at the present level. -/
def options (p : Progress) : Options :=
  match p.level with
  | .root => p.shared
  | _ => p.own

def withOptions (p : Progress) (o : Options) : Progress :=
  match p.level with
  | .root => { p with shared := o }
  | _ => { p with own := o }

def assign (p : Progress) (setting : Setting) (text : String) : Except Intent Progress :=
  match p.options.set? setting text with
  | some o => .ok { p.withOptions o with awaiting := none }
  | none => .error .refused

/-- Takes an option with a value, which is attached or the next argument. -/
def takeSetting (p : Progress) (setting : Setting) (attached : Option String) :
    Except Intent Progress :=
  match attached with
  | some text => p.assign setting text
  | none => .ok { p with awaiting := some setting }

def takeLong (p : Progress) (name : String) (attached : Option String) :
    Except Intent Progress :=
  match name, attached with
  | "max-depth", _ => p.takeSetting .maxDepth attached
  | "max-len", _ => p.takeSetting .maxLength attached
  | "debug", none =>
    if p.options.debug then .error .refused
    else .ok (p.withOptions { p.options with debug := true })
  | "help", none => .error .help
  | _, _ =>
    match p.level, name, attached with
    | .root, "version", none => .error (.version true)
    | .command _, "value", _ => p.takeSetting .value attached
    | .command _, "file", _ => p.takeSetting .file attached
    | _, _, _ => .error .refused

/-- Takes short options.  Each of them ends the reading. -/
def takeShort (p : Progress) (first : Char) : Except Intent Progress :=
  if first = 'h' then .error .help
  else if first = 'V' ∧ p.level = .root then .error (.version false)
  else .error .refused

/-- Holds of an argument that may be the value of an option.  What looks like an option is none,
but a negative number may be the value, and may be any value where it may be a pattern. -/
def admitsValue (p : Progress) (setting : Setting) : Argument → Bool
  | .word _ => true
  | argument => argument.isNegativeNumber && (setting = .value || p.admitsPattern)

def take (p : Progress) (text : String) : Except Intent Progress :=
  let argument := Argument.ofText text
  match p.level, p.wordsOnly, p.awaiting with
  | .help _, _, _ => p.takeWord text
  | _, true, _ => p.takeWord text
  | _, false, some setting =>
    if p.admitsValue setting argument then p.assign setting text else .error .refused
  | _, false, none =>
    match argument with
    | .separator => if p.level = .root then .error .refused else .ok { p with wordsOnly := true }
    | .long name attached => p.takeLong name attached
    | .short first _ =>
      if argument.isNegativeNumber ∧ p.admitsPattern then p.takeWord text else p.takeShort first
    | .word _ => p.takeWord text

/-- The source that the options name, if they do not name two. -/
def source? (o : Options) : Option Source :=
  match o.value, o.file with
  | some text, none => some (.inline text)
  | none, some path => some (.file path)
  | none, none => some .standardInput
  | some _, some _ => none

def limits (p : Progress) : Limits where
  maxDepth := some ((p.own.maxDepth <|> p.shared.maxDepth).getD defaultMaxDepth)
  maxLength := p.own.maxLength <|> p.shared.maxLength

def intent (p : Progress) : Intent :=
  match p.level, p.awaiting, source? p.own, p.patterns.reverse with
  | .help _, _, _, _ => .help
  | .command .extract, none, some source, [pattern] =>
    .run ⟨.extract pattern, source, p.limits⟩
  | .command .firstMatch, none, some source, pattern :: patterns =>
    .run ⟨.firstMatch (pattern :: patterns), source, p.limits⟩
  | _, _, _, _ => .refused

end Progress

def Intent.ofArguments (arguments : List String) : Intent :=
  match arguments.foldlM Progress.take {} with
  | .error intent => intent
  | .ok progress => progress.intent

end Destructure.CommandLine
