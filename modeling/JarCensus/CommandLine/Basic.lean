/-!
# Command lines

A command line names a configuration file and a number of workers, and runs one of
three commands.
-/

namespace JarCensus

/-- The form of a scan report. -/
inductive Format where
  /-- A JSON document. -/
  | json
  /-- Lines of text. -/
  | text
  deriving DecidableEq, Repr

/-- What a command line asks for. -/
inductive Command where
  /-- Scan an archive with its dependencies and write a report. -/
  | scan (archive : String) (dependencies : List String) (format : Format)
      (output : Option String)
  /-- Inspect one class file under a path. -/
  | inspect (classFile : String) (path : Option String)
  /-- Encrypt one class file. -/
  | seal (input output : String)
  deriving DecidableEq, Repr

/-- The file that a command writes, if it writes one. -/
def Command.output? : Command → Option String
  | .scan _ _ _ output => output
  | .inspect .. => none
  | .seal _ output => some output

/-- A command line. -/
structure CommandLine where
  /-- What is asked for. -/
  command : Command
  /-- The path of the configuration. -/
  config : Option String
  /-- The number of workers. -/
  threads : Option Nat
  /-- Whether diagnostics are written as JSON. -/
  logJson : Bool
  deriving DecidableEq, Repr

/-- Why a command line runs no command. -/
inductive UsageError where
  /-- An argument that is not known or that has no place. -/
  | unknownArgument
  /-- A command that is not known. -/
  | unknownCommand
  /-- A value that is missing, empty or not among the allowed ones. -/
  | badValue
  /-- A value that is not a number in range. -/
  | badNumber
  /-- A required argument that is missing. -/
  | missingArgument
  /-- An argument that may be given once is given again. -/
  | repeatedArgument
  /-- A value for an argument that takes none. -/
  | unexpectedValue
  /-- A line without a command. -/
  | missingCommand
  /-- A line without any argument. -/
  | nothingGiven
  /-- A request for help. -/
  | helpRequested
  deriving DecidableEq, Repr

/-- The exit code of a usage error. Help that was asked for is no failure. -/
def UsageError.exitCode : UsageError → Nat
  | .helpRequested => 0
  | _ => 2

end JarCensus
