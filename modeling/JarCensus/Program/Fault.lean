import JarCensus.Config.Reader
import JarCensus.Dependencies

/-!
# Faults that end a run

A fault has a message and may have causes. The last words of a run name all of them.
-/

namespace JarCensus.Program

/-- Why a class cannot be encrypted. -/
inductive SealError where
  /-- No key is configured. -/
  | noKey
  /-- The key is not hexadecimal. -/
  | badKey (fault : Hex.Fault)
  /-- The key or the seed cannot be used. -/
  | setup (error : Decryption.SetupError)
  deriving DecidableEq, Repr

/-- The message of an encryption error followed by that of its cause. -/
def SealError.chain : SealError → List String
  | .noKey => ["No decryption key configured (set ENTITY_SCAN_KEY or the config file)"]
  | .badKey fault => [Config.badKeyMessage, fault.message]
  | .setup error => [error.message]

/-- Why a run ends early. -/
inductive Fault where
  /-- The configuration is refused. -/
  | config (fault : Config.FileFault)
  /-- The configuration does not start a session. -/
  | start (error : Config.StartError)
  /-- The main archive cannot be listed. -/
  | listing (error : ListingError)
  /-- A dependency cannot be searched. -/
  | dependency (error : DependencyError)
  /-- The class file cannot be read. -/
  | unreadable (path : String) (cause : FileError)
  /-- The class is refused. -/
  | entry (error : EntryFault)
  /-- The class cannot be encrypted. -/
  | sealing (error : SealError)
  /-- The folder of an output file cannot be made. -/
  | cannotMakeFolder (path : String) (cause : FileError)
  /-- An output file cannot be written. -/
  | cannotWrite (path : String) (cause : FileError)

namespace Fault

/-- The message of a fault followed by the messages of its causes. -/
def chain : Fault → List String
  | config fault => fault.chain
  | start error => error.chain
  | listing error => error.chain
  | dependency error => [error.message]
  | unreadable path cause => [s!"Failed to read class file: {path}", cause.message]
  | entry error => error.chain
  | sealing error => error.chain
  | cannotMakeFolder path cause => [s!"Failed to create directory: {path}", cause.message]
  | cannotWrite path cause => [s!"Failed to write: {path}", cause.message]

/-- A text whose lines after the first are indented. -/
def hanging (indent text : String) : String :=
  ("\n" ++ indent).intercalate ((Text.splitAt '\n' text.toList).map String.ofList)

/-- The numbered lines of causes. -/
def numbered : Nat → List String → String
  | _, [] => ""
  | n, cause :: rest =>
    let number := toString n
    let padding := String.ofList (List.replicate (5 - number.length) ' ')
    s!"\n{padding}{number}: " ++ hanging "       " cause ++ numbered (n + 1) rest

/-- The text of messages: the first one, and the others as its causes. A single cause is
not numbered. -/
def text : List String → String
  | [] => ""
  | [message] => message
  | [message, cause] => message ++ "\n\nCaused by:\n    " ++ hanging "    " cause
  | message :: causes => message ++ "\n\nCaused by:" ++ numbered 0 causes

/-- The last words of a run. -/
def lastWords (fault : Fault) : String := "Error: " ++ text fault.chain ++ "\n"

end Fault

end JarCensus.Program
