import JarCensus.CommandLine.Basic

/-!
# Grammars of arguments

A grammar lists the named arguments of a command and what its plain arguments fill.
Arguments are read from left to right into a draft. The value of a named or plain
argument is put into the draft only when the next argument starts or the line ends, so
that an unknown argument is reported before the value in front of it is looked at.
-/

namespace JarCensus.CommandLine

/-- A change of a draft by a value. -/
abbrev Setter (α : Type) := String → α → Except UsageError α

/-- What a named argument does. -/
inductive Effect (α : Type) where
  /-- It asks for help. -/
  | help
  /-- It changes the draft and takes no value. -/
  | mark (change : α → Except UsageError α)
  /-- It changes the draft by a value. -/
  | value (change : Setter α)

/-- A named argument. -/
structure Named (α : Type) where
  /-- Its name after two dashes. -/
  long : String
  /-- Its letter after one dash. -/
  short : Option Char
  /-- What it does. -/
  effect : Effect α

/-- The commands that a line may name. -/
inductive Verb where
  /-- Scan an archive. -/
  | scan
  /-- Inspect a class file. -/
  | inspect
  /-- Encrypt a class file. -/
  | seal
  /-- Describe a command. -/
  | help
  deriving DecidableEq, Repr

/-- The name of a command. -/
def Verb.name : Verb → String
  | .scan => "scan"
  | .inspect => "inspect"
  | .seal => "seal"
  | .help => "help"

/-- The command of a name. -/
def Verb.ofName? (name : String) : Option Verb :=
  [.scan, .inspect, .seal, .help].find? (·.name = name)

/-- Every command has its name. -/
theorem Verb.ofName?_name (verb : Verb) : Verb.ofName? verb.name = some verb := by
  cases verb <;> decide

/-- The arguments of a command. -/
structure Grammar (α : Type) where
  /-- The named arguments. -/
  named : List (Named α)
  /-- What the plain arguments fill, in order. -/
  plain : List (Setter α)
  /-- Whether a plain argument names a command, which reads the rest of the line. -/
  hasVerbs : Bool

/-- The value that waits to be put into the draft. -/
inductive Pending (α : Type) where
  /-- None. -/
  | nothing
  /-- A named argument whose value has not come. -/
  | awaited (change : Setter α)
  /-- A value that has come. -/
  | given (change : Setter α) (value : String)

/-- How far a line has been read. -/
structure Progress (α : Type) where
  /-- The arguments so far. -/
  draft : α
  /-- The value that waits. -/
  pending : Pending α
  /-- What the next plain arguments fill. -/
  plain : List (Setter α)
  /-- Whether all arguments to come are plain. -/
  literal : Bool

/-- The form of an argument. -/
inductive Shape where
  /-- Two dashes, after which all arguments are plain. -/
  | divider
  /-- Two dashes and a name, with a value after an equals sign. -/
  | long (name : List Char) (value : Option (List Char))
  /-- One dash, a letter, and text that may be empty. -/
  | short (letter : Char) (rest : List Char)
  /-- Anything else, also a single dash. -/
  | plain
  deriving DecidableEq, Repr

/-- The form of an argument. -/
def Shape.of : List Char → Shape
  | ['-', '-'] => .divider
  | '-' :: '-' :: body =>
    let name := body.takeWhile (· != '=')
    match body.drop name.length with
    | [] => .long name none
    | _ :: value => .long name (some value)
  | '-' :: letter :: rest => .short letter rest
  | _ => .plain

/-- The value attached to a letter. An equals sign in front is not part of it. -/
def attachedValue : List Char → Option (List Char)
  | [] => none
  | '=' :: value => some value
  | value => some value

namespace Progress

variable {α : Type}

/-- Puts the waiting value into the draft. -/
def settle (progress : Progress α) : Except UsageError (Progress α) :=
  match progress.pending with
  | .nothing => .ok progress
  | .awaited _ => .error .badValue
  | .given change value => do
    return { progress with draft := ← change value progress.draft, pending := .nothing }

/-- Whether the next argument is the value of a named one, if it is plain. -/
def isAwaiting (progress : Progress α) : Bool :=
  match progress.pending with
  | .awaited _ => !progress.literal
  | _ => false

/-- Reads a named argument with the value attached to it. -/
def named (progress : Progress α) (attached : Option (List Char)) :
    Effect α → Except UsageError (Progress α)
  | .help =>
    if attached.isSome then .error .unexpectedValue
    else progress.settle >>= fun _ => .error .helpRequested
  | .mark change =>
    if attached.isSome then .error .unexpectedValue
    else do
      let progress ← progress.settle
      return { progress with draft := ← change progress.draft }
  | .value change => do
    let progress ← progress.settle
    match attached with
    | none => return { progress with pending := .awaited change }
    | some value => return { progress with draft := ← change (String.ofList value) progress.draft }

/-- Reads a named argument that is given by its letter. Only a letter that takes a value
has the rest attached to it. -/
def lettered (progress : Progress α) (rest : List Char) :
    Effect α → Except UsageError (Progress α)
  | .help => progress.named none .help
  | .mark change => progress.named none (.mark change)
  | .value change => progress.named (attachedValue rest) (.value change)

end Progress

namespace Grammar

variable {α : Type}

/-- Reads a plain argument that is neither a value nor the name of a command. -/
def readPlain (grammar : Grammar α) (progress : Progress α) (argument : String) :
    Except UsageError (Progress α) :=
  match progress.plain with
  | change :: others => do
    let progress ← progress.settle
    return { progress with pending := .given change argument, plain := others }
  | [] =>
    if grammar.hasVerbs && !(progress.literal && (Verb.ofName? argument).isSome) then
      .error .unknownCommand
    else .error .unknownArgument

/-- Reads one argument that does not name a command. -/
def step (grammar : Grammar α) (progress : Progress α) (argument : String) :
    Except UsageError (Progress α) :=
  if progress.literal then grammar.readPlain progress argument
  else
    match Shape.of argument.toList with
    | .divider => .ok { progress with literal := true }
    | .long name value =>
      match grammar.named.find? (·.long.toList = name) with
      | some found => progress.named value found.effect
      | none => .error .unknownArgument
    | .short letter rest =>
      match grammar.named.find? (·.short = some letter) with
      | some found => progress.lettered rest found.effect
      | none => .error .unknownArgument
    | .plain =>
      match progress.pending with
      | .awaited change => .ok { progress with pending := .given change argument }
      | _ => grammar.readPlain progress argument

/-- The command that an argument names. -/
def verb? (grammar : Grammar α) (progress : Progress α) (argument : String) : Option Verb :=
  if grammar.hasVerbs && !progress.literal && !progress.isAwaiting then Verb.ofName? argument
  else none

/-- Reads arguments up to the end or to the name of a command, which is returned with
the arguments after it. -/
def readFrom (grammar : Grammar α) (progress : Progress α) :
    List String → Except UsageError (Progress α × Option (Verb × List String))
  | [] => .ok (progress, none)
  | argument :: rest =>
    match grammar.verb? progress argument with
    | some verb => .ok (progress, some (verb, rest))
    | none => do
      let progress ← grammar.step progress argument
      grammar.readFrom progress rest

/-- Reads arguments into an empty draft. -/
def read (grammar : Grammar α) (empty : α) (arguments : List String) :
    Except UsageError (Progress α × Option (Verb × List String)) :=
  grammar.readFrom ⟨empty, .nothing, grammar.plain, false⟩ arguments

/-- Reads all arguments of a command that has no commands of its own. -/
def readAll (grammar : Grammar α) (empty : α) (arguments : List String) :
    Except UsageError α := do
  let (progress, _) ← grammar.read empty arguments
  return (← progress.settle).draft

end Grammar

end JarCensus.CommandLine
