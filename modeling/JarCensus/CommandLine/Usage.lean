import JarCensus.CommandLine.Basic

/-!
# Usage

What is said instead of a run: the reason why a line is refused, and the lines that are
understood.
-/

namespace JarCensus

/-- The reason why a line runs no command. -/
def UsageError.message : UsageError → String
  | .unknownArgument => "unexpected argument found"
  | .unknownCommand => "unrecognized subcommand"
  | .badValue => "invalid value for an argument"
  | .badNumber => "invalid number for an argument"
  | .missingArgument => "a required argument was not provided"
  | .repeatedArgument => "an argument cannot be used multiple times"
  | .unexpectedValue => "unexpected value for an argument"
  | .missingCommand => "a subcommand was not provided"
  | .nothingGiven => "nothing to do"
  | .helpRequested => "help requested"

/-- The lines that are understood. -/
def CommandLine.usage : String :=
  "Find persistence entities and attribute converters in Java archives\n\n" ++
    "Usage: entity-scan [OPTIONS] <COMMAND>\n\n" ++
    "Commands:\n" ++
    "  scan <ARCHIVE> [--deps <DIR>]... [-f json|text] [-o <FILE>]\n" ++
    "  inspect <CLASS_FILE> [--path <NAME>]\n" ++
    "  seal <INPUT> -o <FILE>\n" ++
    "  help [COMMAND]\n\n" ++
    "Options:\n" ++
    "  --config <FILE>  --threads <N>  --log-json  -h, --help\n"

/-- What is said instead of a run. Help needs no reason. -/
def UsageError.text (error : UsageError) : String :=
  match error with
  | .helpRequested | .nothingGiven => CommandLine.usage
  | _ => s!"error: {error.message}\n\n" ++ CommandLine.usage

end JarCensus
