import JarCensus.Bytes
import JarCensus.Text.CodePage437
import JarCensus.Text.Utf8
import JarCensus.Zip.Fault

/-!
# Directories of zip archives

The end of the directory is searched from the back of the archive. It says how many
records there are and where they start; an archive with data in front of it has all
its offsets shifted. A 64-bit directory end, found through its locator, takes
precedence.
-/

namespace JarCensus.Zip

/-- A step that takes bytes off the front. -/
abbrev Reader := StateT Bytes (Except Fault)

namespace Reader

/-- Takes the next `count` bytes. -/
def take (count : Nat) : Reader Bytes := fun bytes =>
  match Bytes.split? count bytes with
  | some (front, back) => .ok (front, back)
  | none => .error .cutShort

/-- Takes a number of `count` bytes, least significant first. -/
def number (count : Nat) : Reader Nat := Bytes.littleEndian <$> take count

end Reader

/-- What the directory says of a member. -/
structure Member where
  /-- The name of the member. -/
  name : String
  /-- Whether the member needs a password. -/
  isEncrypted : Bool
  /-- The number of the compression method. -/
  method : Nat
  /-- The check value of the plain data. -/
  checksum : Nat
  /-- The number of bytes of the plain data. -/
  plainSize : Nat
  /-- The number of bytes of the compressed data. -/
  compressedSize : Nat
  /-- Where the local header of the member starts. -/
  headerOffset : Nat
  deriving DecidableEq, Repr

/-- The value of a 32-bit field whose true value stands elsewhere. -/
def allOnes32 : Nat := 0xFFFFFFFF

/-- The number of the method that says that a member is encrypted. -/
def encryptedMethod : Nat := 99

namespace Member

/-- The true value of a field: taken from the extra field if the record holds all ones. -/
def widen (value : Nat) : StateT Bytes Option Nat :=
  if value = allOnes32 then fun bytes =>
    (Bytes.split? 8 bytes).map fun (front, back) => (Bytes.littleEndian front, back)
  else pure value

/-- The parts of an extra field that says how a member is encrypted: the number of the
method that it is compressed by. -/
def cipherField (field : Bytes) : Except Fault Nat := do
  let version := Bytes.littleEndian (field.take 2)
  let vendor := Bytes.littleEndian ((field.drop 2).take 2)
  let strength := Bytes.littleEndian ((field.drop 4).take 1)
  if vendor ≠ 0x4541 then throw .cipherVendor
  if version ≠ 1 ∧ version ≠ 2 then throw .cipherVersion
  if strength = 0 ∨ 3 < strength then throw .cipherStrength
  return Bytes.littleEndian ((field.drop 5).take 2)

/-- The member with its extra fields taken into account, and whether one of them says
how it is encrypted. Extra fields that are cut short end the list. The fuel is the
number of bytes, of which every field takes four. -/
def applyExtra : Nat → Bytes → Member → Bool → Except Fault (Member × Bool)
  | 0, _, member, isCiphered => .ok (member, isCiphered)
  | fuel + 1, bytes, member, isCiphered =>
    match Bytes.split? 4 bytes with
    | none => .ok (member, isCiphered)
    | some (header, rest) =>
      let kind := Bytes.littleEndian (header.take 2)
      let length := Bytes.littleEndian (header.drop 2)
      if kind = 0x0001 then
        match widen member.plainSize rest with
        | none => .ok (member, isCiphered)
        | some (plainSize, afterPlain) =>
          let member := { member with plainSize }
          match widen member.compressedSize afterPlain with
          | none => .ok (member, isCiphered)
          | some (compressedSize, afterCompressed) =>
            let member := { member with compressedSize }
            match widen member.headerOffset afterCompressed with
            | none => .ok (member, isCiphered)
            | some (headerOffset, afterOffset) =>
              let used := rest.length - afterOffset.length
              applyExtra fuel (afterOffset.drop (length - used)) { member with headerOffset }
                isCiphered
      else if kind = 0x9901 then
        if length ≠ 7 then .error .cipherFieldLength
        else
          match Bytes.split? 7 rest with
          | none => .ok (member, isCiphered)
          | some (field, after) =>
            match cipherField field with
            | .error fault => .error fault
            | .ok method => applyExtra fuel (after.drop 7) { member with method } true
      else applyExtra fuel (rest.drop length) member isCiphered

/-- Takes one record of the directory. All offsets of the archive are shifted. -/
def read (shift : Nat) : Reader Member := do
  let signature ← Reader.number 4
  if signature ≠ 0x02014B50 then throw .badDirectoryRecord
  let _ ← Reader.take 4
  let flags ← Reader.number 2
  let method ← Reader.number 2
  let _ ← Reader.take 4
  let checksum ← Reader.number 4
  let compressedSize ← Reader.number 4
  let plainSize ← Reader.number 4
  let nameLength ← Reader.number 2
  let extraLength ← Reader.number 2
  let commentLength ← Reader.number 2
  let _ ← Reader.take 8
  let headerOffset ← Reader.number 4
  let nameBytes ← Reader.take nameLength
  let extra ← Reader.take extraLength
  let _ ← Reader.take commentLength
  let name :=
    if flags / 2048 % 2 = 1 then Text.Utf8.decodeLossy nameBytes
    else Text.CodePage437.decode nameBytes
  let plain : Member :=
    ⟨String.ofList name, flags % 2 = 1, method, checksum, plainSize, compressedSize, headerOffset⟩
  let (member, isCiphered) ← applyExtra (extra.length + 1) extra plain false
  if member.method = encryptedMethod ∧ ¬ isCiphered then throw .cipherFieldMissing
  let start := member.headerOffset + shift
  if Bytes.end64 ≤ start then throw .offsetTooLarge
  return { member with headerOffset := start }

/-- Takes the given number of records. -/
def readAll (shift : Nat) : Nat → Array Member → Reader (Array Member)
  | 0, members => pure members
  | count + 1, members => do
    let member ← read shift
    readAll shift count (members.push member)

end Member

/-- The end of a directory. -/
structure DirectoryEnd where
  /-- The number of this disk. -/
  disk : Nat
  /-- The number of the disk with the directory. -/
  directoryDisk : Nat
  /-- The number of records on this disk. -/
  count : Nat
  /-- Whether some field holds all ones. -/
  isTooSmall : Bool
  /-- The number of bytes of the directory. -/
  size : Nat
  /-- Where the directory starts. -/
  offset : Nat
  /-- The number of bytes of the comment. -/
  commentLength : Nat
  deriving DecidableEq, Repr

namespace DirectoryEnd

/-- The number of bytes before the comment. -/
def fixedSize : Nat := 22

/-- The place of the last directory end among the suffixes of some bytes, with the bytes
from there on. `position` is where the bytes start, and `found` the last place before
them. -/
def locate : Nat → Bytes → Option (Nat × Bytes) → Option (Nat × Bytes)
  | _, [], found => found
  | position, byte :: rest, found =>
    let isHere := byte == 0x50 && rest.take 3 == [0x4B, 0x05, 0x06] &&
      Bytes.missing (fixedSize - 1) rest == 0
    locate (position + 1) rest (if isHere then some (position, byte :: rest) else found)

/-- Takes a directory end. -/
def read : Reader DirectoryEnd := do
  let _ ← Reader.take 4
  let disk ← Reader.number 2
  let directoryDisk ← Reader.number 2
  let count ← Reader.number 2
  let total ← Reader.number 2
  let size ← Reader.number 4
  let offset ← Reader.number 4
  let commentLength ← Reader.number 2
  let _ ← Reader.take commentLength
  let isTooSmall := [disk, directoryDisk, count, total].contains 0xFFFF ||
    [size, offset].contains allOnes32
  return ⟨disk, directoryDisk, count, isTooSmall, size, offset, commentLength⟩

end DirectoryEnd

/-- Where the records of a directory stand. -/
structure Layout where
  /-- By how much all offsets are shifted. -/
  shift : Nat
  /-- Where the directory starts. -/
  start : Nat
  /-- The number of records. -/
  count : Nat
  deriving DecidableEq, Repr

namespace Layout

/-- The number of bytes of a locator. -/
def locatorSize : Nat := 20

/-- The disk and the offset that a 64-bit locator names, if the bytes start with one. -/
def locator? (bytes : Bytes) : Option (Nat × Nat) :=
  if bytes.take 4 = [0x50, 0x4B, 0x06, 0x07] then
    some (Bytes.littleEndian ((bytes.drop 4).take 4), Bytes.littleEndian ((bytes.drop 8).take 8))
  else none

/-- The first 64-bit directory end in the given number of places, with the number of
places before it. -/
def locateWide : Nat → Nat → Bytes → Option (Nat × Bytes)
  | 0, _, _ => none
  | places + 1, passed, bytes =>
    if bytes.take 4 = [0x50, 0x4B, 0x06, 0x06] then some (passed, bytes)
    else locateWide places (passed + 1) (bytes.drop 1)

/-- Takes a 64-bit directory end whose archive is shifted by the given count. -/
def readWide (shift : Nat) : Reader Layout := do
  let _ ← Reader.take 16
  let disk ← Reader.number 4
  let directoryDisk ← Reader.number 4
  let _ ← Reader.take 8
  let count ← Reader.number 8
  let _ ← Reader.take 8
  let offset ← Reader.number 8
  if disk ≠ directoryDisk then throw .multiDisk
  if Bytes.end64 ≤ offset + shift then throw .badDirectoryRange
  return ⟨shift, offset + shift, count⟩

/-- The layout that a directory end at the given position describes. -/
def ofEnd (archive : Bytes) (position : Nat) (footer : DirectoryEnd) : Except Fault Layout :=
  let trailer := locatorSize + DirectoryEnd.fixedSize + footer.commentLength
  let found :=
    if trailer ≤ archive.length then locator? (archive.drop (archive.length - trailer)) else none
  match found with
  | none =>
    if footer.size + footer.offset ≤ position then
      let shift := position - footer.size - footer.offset
      .ok ⟨shift, footer.offset + shift, footer.count⟩
    else .error .badDirectoryRange
  | some (disk, offset) =>
    if !footer.isTooSmall && footer.disk != disk then .error .multiDisk
    else if position < 60 then .error .noRoomForWideEnd
    else
      match locateWide (position - 60 + 1 - offset) 0 (archive.drop offset) with
      | none => .error .noWideDirectoryEnd
      | some (shift, bytes) => ((readWide shift).run bytes).map (·.1)

end Layout

/-- The members of an archive, in the order of its directory. -/
def members (archive : Bytes) : Except Fault (List Member) := do
  let length := archive.length
  if length < DirectoryEnd.fixedSize then throw .headerTooShort
  let earliest := length - DirectoryEnd.fixedSize - 0xFFFF
  match DirectoryEnd.locate earliest (archive.drop earliest) none with
  | none => throw .noDirectoryEnd
  | some (position, bytes) =>
    let (footer, _) ← DirectoryEnd.read bytes
    if !footer.isTooSmall && footer.disk != footer.directoryDisk then throw .multiDisk
    let layout ← Layout.ofEnd archive position footer
    let (found, _) ← Member.readAll layout.shift layout.count #[] (archive.drop layout.start)
    return found.toList

end JarCensus.Zip
