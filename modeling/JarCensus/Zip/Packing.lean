import JarCensus.Text.Utf8
import JarCensus.Zip.Crc32
import JarCensus.Zip.Inflate

/-!
# Plain archives

The plainest archive of named contents: the data of the members follows upon each other, and the
directory follows the data. A member is stored as it is, or given with a compressed form of its
content.
-/

namespace JarCensus.Zip.Packing

/-- A member to be packed, with the data that stands for its content. -/
structure Part where
  /-- The name of the member. -/
  name : String
  /-- The content of the member. -/
  content : Bytes
  /-- The number of the compression method. -/
  method : Nat
  /-- The data. -/
  data : Bytes
  /-- The data is the content itself, or a compressed form of it. -/
  stands : method = 0 ∧ data = content ∨ method = 8 ∧ Inflate.inflate data = .ok content

/-- A member that is stored as it is. -/
def Part.stored (name : String) (content : Bytes) : Part :=
  ⟨name, content, 0, content, .inl ⟨rfl, rfl⟩⟩

/-- A member that comes with a compressed form of its content. -/
def Part.deflated (name : String) (content data : Bytes)
    (hdata : Inflate.inflate data = .ok content) : Part :=
  ⟨name, content, 8, data, .inr ⟨rfl, hdata⟩⟩

/-- The bytes of the name of a member. -/
def Part.nameBytes (part : Part) : Bytes := Text.Utf8.encode part.name.toList

/-- A number in `count` bytes, least significant first. -/
def number : Nat → Nat → Bytes
  | 0, _ => []
  | count + 1, value => UInt8.ofNat value :: number count (value / 256)

/-- The fields that a local header and a directory record have in common. -/
def fields (part : Part) : Bytes :=
  number 2 20 ++ number 2 0 ++ number 2 part.method ++ number 4 0 ++
    number 4 (Crc32.checksum part.content).toNat ++ number 4 part.data.length ++
    number 4 part.content.length ++ number 2 part.nameBytes.length ++ number 2 0

/-- A local header with the data behind it. -/
def localRecord (part : Part) : Bytes :=
  number 4 0x04034B50 ++ fields part ++ part.nameBytes ++ part.data

/-- The directory record of a member whose local header starts at an offset. -/
def directoryRecord (offset : Nat) (part : Part) : Bytes :=
  number 4 0x02014B50 ++ number 2 20 ++ fields part ++ number 10 0 ++ number 4 offset ++
    part.nameBytes

/-- The local records and the directory records of members. The local records start at an
offset. -/
def records (offset : Nat) : List Part → Bytes × Bytes
  | [] => ([], [])
  | part :: rest =>
    let first := localRecord part
    let (others, directory) := records (offset + first.length) rest
    (first ++ others, directoryRecord offset part ++ directory)

/-- The archive of members. -/
def archive (parts : List Part) : Bytes :=
  let (data, directory) := records 0 parts
  data ++ directory ++ number 4 0x06054B50 ++ number 4 0 ++ number 2 parts.length ++
    number 2 parts.length ++ number 4 directory.length ++ number 4 data.length ++ number 2 0

/-- A block that is stored as it is, with a mark that says whether it is the last one. -/
def storedBlock (mark : Nat) (content : Bytes) : Bytes :=
  UInt8.ofNat mark :: (number 2 content.length ++ (number 2 (0xFFFF - content.length) ++ content))

/-- Blocks that are all stored as they are: some, and the last one. -/
def storedBlocks (last : Bytes) : List Bytes → Bytes
  | [] => storedBlock 1 last
  | first :: rest => storedBlock 0 first ++ storedBlocks last rest

end JarCensus.Zip.Packing
