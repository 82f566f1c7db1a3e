import JarCensus.Bytes
import JarCensus.Text.Quoted

/-!
# Entries and their streams

An entry is a named stream of an archive or a folder. Its stream gives the same
answer whenever it is opened: its bytes, or the reason why it cannot be opened or
cannot be read to its end.
-/

namespace JarCensus

/-- What opening a stream and reading it to its end comes to. -/
inductive Stream where
  /-- The stream gives its bytes. -/
  | content (bytes : Bytes)
  /-- The stream cannot be opened. -/
  | unopenable (reason : String)
  /-- The stream gives some bytes, and reading on fails. -/
  | broken (start : Bytes) (reason : String)
  deriving DecidableEq, Repr

/-- All bytes of a stream, or the reason why it cannot be read. -/
def Stream.read : Stream → Except String Bytes
  | content bytes => .ok bytes
  | unopenable reason => .error reason
  | broken _ reason => .error reason

/-- A file of an archive or a folder that may hold a class. -/
structure Entry where
  /-- The path of the entry inside its container. -/
  name : String
  /-- Whether the entry belongs to the main archive itself. -/
  isRoot : Bool
  /-- The archive or folder that the entry was listed from. -/
  container : Option String
  /-- The stream of the entry. -/
  stream : Stream
  deriving DecidableEq, Repr

/-- The diagnostic form of an entry. -/
def Entry.shown (entry : Entry) : String :=
  "ArchiveEntry \x7b name: " ++ Text.Quoted.text entry.name ++ ", is_root: " ++
    toString entry.isRoot ++ ", container: " ++
    Text.Quoted.optional (entry.container.map Text.Quoted.text) ++ ", .. \x7d"

end JarCensus
