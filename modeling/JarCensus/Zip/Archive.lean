import JarCensus.Entry
import JarCensus.Zip.Crc32
import JarCensus.Zip.Directory
import JarCensus.Zip.Inflate

/-!
# Members of zip archives

Opening a member finds its data behind its local header, and can be refused. Reading
an opened member gives its plain data when it has the check value of the directory.
-/

namespace JarCensus.Zip

/-- Why the data of an opened member cannot be read to its end. -/
inductive DataFault where
  /-- The plain data does not have the check value. -/
  | invalidChecksum
  /-- The compressed data has no plain form. -/
  | compression (fault : Inflate.Fault)
  deriving DecidableEq, Repr

/-- The message of a data fault. -/
def DataFault.message : DataFault → String
  | .invalidChecksum => "Invalid checksum"
  | .compression .corrupt => "corrupt deflate stream"
  | .compression .incomplete => "incomplete deflate stream"

/-- How the data of a member is stored. -/
inductive Method where
  /-- As it is. -/
  | stored
  /-- Compressed. -/
  | deflated
  deriving DecidableEq, Repr

/-- The method of a number. -/
def Method.ofNumber? : Nat → Option Method
  | 0 => some .stored
  | 8 => some .deflated
  | _ => none

/-- Takes a local header and gives the number of bytes between it and the data. -/
def localHeader : Reader Nat := do
  let signature ← Reader.number 4
  if signature ≠ 0x04034B50 then throw .badLocalHeader
  let _ ← Reader.take 22
  let nameLength ← Reader.number 2
  let extraLength ← Reader.number 2
  return nameLength + extraLength

/-- The number of bytes of a local header. -/
def localHeaderSize : Nat := 30

/-- A member whose data was found. -/
structure Item where
  /-- What the directory says of the member. -/
  member : Member
  /-- How the data is stored. -/
  method : Method
  /-- Where the data starts. -/
  start : Nat
  deriving DecidableEq, Repr

namespace Item

/-- Opens a member of an archive. A member that can be opened may still fail to be
read. -/
def find (archive : Array UInt8) (member : Member) : Except Fault Item := do
  if member.isEncrypted then throw .passwordRequired
  let headerEnd := member.headerOffset + localHeaderSize
  let (gap, _) ← localHeader (archive.extract member.headerOffset headerEnd).toList
  match Method.ofNumber? member.method with
  | none => throw .unsupportedMethod
  | some method => return ⟨member, method, headerEnd + gap⟩

/-- The data of an item as far as the archive reaches. -/
def data (archive : Array UInt8) (item : Item) : Bytes :=
  (archive.extract item.start (item.start + item.member.compressedSize)).toList

/-- The plain form of the data, which has to have the check value. -/
def plainData (archive : Array UInt8) (item : Item) : Except DataFault Bytes := do
  let plain ← match item.method with
    | .stored => pure (item.data archive)
    | .deflated => (Inflate.inflate (item.data archive)).mapError .compression
  if (Crc32.checksum plain).toNat = item.member.checksum then return plain
  else throw .invalidChecksum

/-- The stream of the plain data. -/
def stream (archive : Array UInt8) (item : Item) : Stream :=
  match item.plainData archive with
  | .ok plain => .content plain
  | .error fault => .unopenable fault.message

end Item

/-- Whether the name is that of a folder. -/
def isFolderName (name : String) : Bool :=
  match name.toList.getLast? with
  | some last => last == '/' || last == '\\'
  | none => false

end JarCensus.Zip
