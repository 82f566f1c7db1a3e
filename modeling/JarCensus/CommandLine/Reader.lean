import JarCensus.Bytes
import JarCensus.CommandLine.Grammar

/-!
# Reading command lines

The arguments in front of the command belong to the line and those after it to the
command. The arguments of the command are checked before the last value of the line.
-/

namespace JarCensus.CommandLine

/-- The named argument that asks for help. -/
def helpArgument {α : Type} : Named α := ⟨"help", some 'h', .help⟩

/-- The value of an argument that may be given once. -/
def once {β : Type} (old : Option β) (value : Except UsageError β) :
    Except UsageError (Option β) :=
  if old.isSome then .error .repeatedArgument else some <$> value

/-- A path, which may not be empty. -/
def pathValue (value : String) : Except UsageError String :=
  if value.isEmpty then .error .badValue else .ok value

/-- The form of a report by its name. -/
def formatValue : String → Except UsageError Format
  | "json" => .ok .json
  | "text" => .ok .text
  | _ => .error .badValue

/-- The number that decimal digits stand for. -/
def decimal (digits : List Char) : Nat :=
  digits.foldl (fun n digit => 10 * n + (digit.toNat - '0'.toNat)) 0

/-- A number of 64 bits in decimal digits, which a plus sign may precede. -/
def countValue (value : String) : Except UsageError Nat :=
  let digits :=
    match value.toList with
    | '+' :: digits => digits
    | digits => digits
  if digits.isEmpty || !digits.all Char.isDigit then .error .badNumber
  else if decimal digits < Bytes.end64 then .ok (decimal digits)
  else .error .badNumber

/-- The arguments of a line so far. -/
structure LineDraft where
  /-- The path of the configuration. -/
  config : Option String
  /-- The number of workers. -/
  threads : Option Nat
  /-- Whether diagnostics are written as JSON. -/
  logJson : Bool
  deriving DecidableEq, Repr

namespace LineDraft

/-- A line without arguments. -/
def empty : LineDraft := ⟨none, none, false⟩

/-- The arguments in front of the command. -/
def grammar : Grammar LineDraft where
  named :=
    [⟨"config", none, .value fun value draft => do
        return { draft with config := ← once draft.config (pathValue value) }⟩,
      ⟨"threads", none, .value fun value draft => do
        return { draft with threads := ← once draft.threads (countValue value) }⟩,
      ⟨"log-json", none, .mark fun draft =>
        if draft.logJson then .error .repeatedArgument
        else .ok { draft with logJson := true }⟩,
      helpArgument]
  plain := []
  hasVerbs := true

end LineDraft

/-- The arguments of a scan so far. -/
structure ScanDraft where
  /-- The archive. -/
  archive : Option String
  /-- The dependencies. -/
  dependencies : List String
  /-- The form of the report. -/
  format : Option Format
  /-- The file that the report goes to. -/
  output : Option String
  deriving DecidableEq, Repr

namespace ScanDraft

/-- A scan without arguments. -/
def empty : ScanDraft := ⟨none, [], none, none⟩

/-- The arguments of a scan. -/
def grammar : Grammar ScanDraft where
  named :=
    [⟨"deps", none, .value fun value draft => do
        return { draft with dependencies := draft.dependencies ++ [← pathValue value] }⟩,
      ⟨"format", some 'f', .value fun value draft => do
        return { draft with format := ← once draft.format (formatValue value) }⟩,
      ⟨"output", some 'o', .value fun value draft => do
        return { draft with output := ← once draft.output (pathValue value) }⟩,
      helpArgument]
  plain :=
    [fun value draft => do
      return { draft with archive := ← once draft.archive (pathValue value) }]
  hasVerbs := false

/-- The command of the arguments. A report is JSON unless another form is given. -/
def command (draft : ScanDraft) : Except UsageError Command :=
  match draft.archive with
  | some archive =>
    .ok (.scan archive draft.dependencies (draft.format.getD .json) draft.output)
  | none => .error .missingArgument

end ScanDraft

/-- The arguments of an inspection so far. -/
structure InspectDraft where
  /-- The class file. -/
  classFile : Option String
  /-- The path that the class goes under. -/
  path : Option String
  deriving DecidableEq, Repr

namespace InspectDraft

/-- An inspection without arguments. -/
def empty : InspectDraft := ⟨none, none⟩

/-- The arguments of an inspection. The path may be empty. -/
def grammar : Grammar InspectDraft where
  named :=
    [⟨"path", none, .value fun value draft => do
        return { draft with path := ← once draft.path (.ok value) }⟩,
      helpArgument]
  plain :=
    [fun value draft => do
      return { draft with classFile := ← once draft.classFile (pathValue value) }]
  hasVerbs := false

/-- The command of the arguments. -/
def command (draft : InspectDraft) : Except UsageError Command :=
  match draft.classFile with
  | some classFile => .ok (.inspect classFile draft.path)
  | none => .error .missingArgument

end InspectDraft

/-- The arguments of an encryption so far. -/
structure SealDraft where
  /-- The plain class file. -/
  input : Option String
  /-- The file that the encrypted class goes to. -/
  output : Option String
  deriving DecidableEq, Repr

namespace SealDraft

/-- An encryption without arguments. -/
def empty : SealDraft := ⟨none, none⟩

/-- The arguments of an encryption. -/
def grammar : Grammar SealDraft where
  named :=
    [⟨"output", some 'o', .value fun value draft => do
        return { draft with output := ← once draft.output (pathValue value) }⟩,
      helpArgument]
  plain :=
    [fun value draft => do
      return { draft with input := ← once draft.input (pathValue value) }]
  hasVerbs := false

/-- The command of the arguments. -/
def command (draft : SealDraft) : Except UsageError Command :=
  match draft.input, draft.output with
  | some input, some output => .ok (.seal input output)
  | _, _ => .error .missingArgument

end SealDraft

/-- The outcome of a request to describe a command. At most one command is named. -/
def describeCommand : List String → UsageError
  | [] => .helpRequested
  | [name] => if (Verb.ofName? name).isSome then .helpRequested else .unknownCommand
  | _ => .unknownCommand

/-- Reads the arguments of a command. -/
def readCommand (arguments : List String) : Verb → Except UsageError Command
  | .scan => ScanDraft.grammar.readAll .empty arguments >>= ScanDraft.command
  | .inspect => InspectDraft.grammar.readAll .empty arguments >>= InspectDraft.command
  | .seal => SealDraft.grammar.readAll .empty arguments >>= SealDraft.command
  | .help => .error (describeCommand arguments)

/-- Reads a command line. -/
def read (arguments : List String) : Except UsageError CommandLine := do
  let (progress, next) ← LineDraft.grammar.read .empty arguments
  match next with
  | some (verb, rest) =>
    let command ← readCommand rest verb
    let draft := (← progress.settle).draft
    return ⟨command, draft.config, draft.threads, draft.logJson⟩
  | none =>
    let draft := (← progress.settle).draft
    throw (if draft = .empty then .nothingGiven else .missingCommand)

end JarCensus.CommandLine
