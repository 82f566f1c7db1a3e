import JarCensus.ClassFile.Fault
import JarCensus.Decryption.Gate

/-!
# Failures of entries

An entry fails when it cannot be read, when its protected bytes cannot be opened or do
not open to a class file, or when it is not a class file.
-/

namespace JarCensus

/-- The message of a transform error, without its cause. -/
def Decryption.TransformError.message : Decryption.TransformError → String
  | .refused reason => s!"decryption transform failed: {reason}"
  | .rejected _ => "decrypted bytes are not a valid class file"

/-- The message of a transform error followed by that of its cause. -/
def Decryption.TransformError.chain (error : Decryption.TransformError) : List String :=
  error.message ::
    match error with
    | .refused _ => []
    | .rejected fault => [fault.message]

/-- Why an entry was not categorized. -/
inductive EntryCause where
  /-- The stream could not be opened or read. -/
  | unreadable (reason : String)
  /-- The protected bytes could not be opened. -/
  | decryption (error : Decryption.TransformError)
  /-- The bytes are not a class file. -/
  | malformed (fault : ClassFile.Fault)
  deriving DecidableEq, Repr

/-- The failure of the entry at a path. -/
structure EntryFault where
  /-- The path of the entry. -/
  path : String
  /-- Why it failed. -/
  cause : EntryCause
  deriving DecidableEq, Repr

namespace EntryFault

/-- The word for a kind of failure in reports. -/
def kind (error : EntryFault) : String :=
  match error.cause with
  | .unreadable _ => "unreadable"
  | .decryption _ => "decryption"
  | .malformed _ => "malformed"

/-- The message of a failure, without its causes. -/
def message (error : EntryFault) : String :=
  match error.cause with
  | .unreadable _ => s!"entry {error.path} could not be read"
  | .decryption _ => s!"entry {error.path} could not be decrypted"
  | .malformed _ => s!"entry {error.path} is not a valid class file"

/-- The message of a failure followed by the messages of its causes. -/
def chain (error : EntryFault) : List String :=
  error.message ::
    match error.cause with
    | .unreadable reason => [reason]
    | .decryption cause => cause.chain
    | .malformed fault => [fault.message]

/-- The message of a failure and of its causes in one line. -/
def fullMessage (error : EntryFault) : String := ": ".intercalate error.chain

end EntryFault

/-- A failure as it is kept beside the result of a scan. -/
structure Failure where
  /-- The path of the entry. -/
  path : String
  /-- The container that the entry was listed from. -/
  container : Option String
  /-- Whether the entry belongs to the main archive itself. -/
  isRoot : Bool
  /-- What went wrong. -/
  error : EntryFault
  deriving DecidableEq, Repr

end JarCensus
