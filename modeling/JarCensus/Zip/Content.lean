import JarCensus.Zip.Archive

/-!
# What the members of an archive hold

The data of a member stands behind its local header, and behind the name and the extra field
that the header announces. It is the content of the member itself or a compressed form of it,
and the directory has the check value of the content.
-/

namespace JarCensus.Zip

/-- The number that stands at an offset in `count` bytes. -/
def numberAt (archive : Bytes) (offset count : Nat) : Nat :=
  Bytes.littleEndian ((archive.drop offset).take count)

namespace Member

/-- That a member can be opened: no password is needed, its compression method is known, and its
local header is where the directory says. -/
structure Opens (archive : Bytes) (member : Member) : Prop where
  /-- No password is needed. -/
  isPlain : member.isEncrypted = false
  /-- The member is stored as it is, or compressed by the one method that is known. -/
  known : member.method = 0 ∨ member.method = 8
  /-- The archive has a local header at the offset. -/
  reaches : member.headerOffset + 30 ≤ archive.length
  /-- The header has its signature. -/
  signature : numberAt archive member.headerOffset 4 = 0x04034B50

/-- Where the data of a member starts: behind its local header, and behind a name and an extra
field of the lengths in the header. -/
def dataStart (archive : Bytes) (member : Member) : Nat :=
  member.headerOffset + 30 + numberAt archive (member.headerOffset + 26) 2 +
    numberAt archive (member.headerOffset + 28) 2

/-- The data of a member, as far as the archive reaches. -/
def storedData (archive : Bytes) (member : Member) : Bytes :=
  (archive.drop (member.dataStart archive)).take member.compressedSize

/-- That the data of a member stands for plain bytes. -/
inductive StandsFor (archive : Bytes) (member : Member) : Bytes → Prop
  /-- Data that is stored as it is. -/
  | itself (hmethod : member.method = 0) : StandsFor archive member (member.storedData archive)
  /-- Compressed data. -/
  | inflated {plain : Bytes} (hmethod : member.method = 8)
    (hplain : Inflate.inflate (member.storedData archive) = .ok plain) :
    StandsFor archive member plain

/-- What comes of reading a member that can be opened. -/
inductive Gives (archive : Bytes) (member : Member) : Stream → Prop
  /-- The plain bytes that the data stands for, if they have the check value. -/
  | content {plain : Bytes} (hplain : member.StandsFor archive plain)
    (hcheck : (Crc32.checksum plain).toNat = member.checksum) :
    Gives archive member (.content plain)
  /-- Nothing, if they have another one. -/
  | mismatch {plain : Bytes} (hplain : member.StandsFor archive plain)
    (hcheck : (Crc32.checksum plain).toNat ≠ member.checksum) :
    Gives archive member (.unopenable "Invalid checksum")
  /-- Nothing, if the data is not the compressed form of anything. -/
  | corrupt {fault : Inflate.Fault} (hmethod : member.method = 8)
    (hfault : Inflate.inflate (member.storedData archive) = .error fault) :
    Gives archive member (.unopenable (DataFault.compression fault).message)

end Member

/-- That an archive has a directory of the given members, which can all be opened. -/
structure IsArchive (archive : Bytes) (members : List Member) : Prop where
  /-- The directory has these members. -/
  directory : Zip.members archive = .ok members
  /-- They can all be opened. -/
  opens : ∀ member ∈ members, member.Opens archive

end JarCensus.Zip
