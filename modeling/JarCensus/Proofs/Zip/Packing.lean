import Mathlib.Algebra.Group.Nat.Defs
import Mathlib.Data.List.Forall2
import JarCensus.Proofs.Text.Utf8
import JarCensus.Proofs.Zip.Content
import JarCensus.Zip.Packing

/-!
# Plain archives are read back

A plain archive is read as one whose members have the names and hold the contents that were
packed. The check values are not computed for this: the archive and its reader compute the same
ones of the same bytes.
-/

namespace JarCensus.Zip

section Numbers

variable {count value : Nat}

namespace Packing

/-- A number takes as many bytes as it is given. -/
@[simp] theorem length_number (count value : Nat) : (number count value).length = count := by
  induction count generalizing value with
  | zero => rfl
  | succ count ih => rw [number, List.length_cons, ih]

/-- A number that fits is the value of its bytes. -/
theorem littleEndian_number (hfits : value < 256 ^ count) :
    Bytes.littleEndian (number count value) = value := by
  induction count generalizing value with
  | zero => simp_all [number, Bytes.littleEndian]
  | succ count ih =>
    have hrest : value / 256 < 256 ^ count := by
      rw [Nat.pow_succ'] at hfits
      exact Nat.div_lt_of_lt_mul hfits
    rw [number, Bytes.littleEndian, ih hrest, UInt8.toNat_ofNat']
    omega

end Packing

/-- A number that was written is read back. -/
theorem Reader.number_number (hfits : value < 256 ^ count) (back : Bytes) :
    Reader.number count (Packing.number count value ++ back) = .ok (value, back) := by
  refine Reader.number_eq_ok_iff.mpr ⟨by simp, ?_, by simp⟩
  rw [List.take_left' (Packing.length_number count value), Packing.littleEndian_number hfits]

/-- Bytes are taken off the front. -/
theorem Reader.take_append {count : Nat} {front : Bytes} (hlength : front.length = count)
    (back : Bytes) : Reader.take count (front ++ back) = .ok (front, back) :=
  Reader.take_eq_ok_iff.mpr ⟨by simp [hlength], by simp [← hlength], by simp [← hlength]⟩

end Numbers

namespace Packing

section Names

variable {name : String}

/-- That all characters of a name are ASCII. -/
def IsAscii (name : String) : Prop := ∀ c ∈ name.toList, c.toNat < 0x80

instance (name : String) : Decidable (IsAscii name) :=
  List.decidableBAll (fun c : Char => c.toNat < 0x80) name.toList

/-- An ASCII name takes one byte for each character. -/
theorem encode_of_isAscii (hname : IsAscii name) :
    Text.Utf8.encode name.toList = name.toList.map fun c => UInt8.ofNat c.toNat := by
  rw [Text.Utf8.encode, ← List.flatMap_pure_eq_map]
  exact List.flatMap_congr fun c hc => Text.Utf8.encodeChar_of_lt (hname c hc)

/-- An ASCII name is read back from its bytes. -/
theorem decode_encode (hname : IsAscii name) :
    String.ofList (Text.CodePage437.decode (Text.Utf8.encode name.toList)) = name := by
  have hchar : ∀ c ∈ name.toList, Text.CodePage437.char (UInt8.ofNat c.toNat) = c := by
    intro c hc
    have hascii := hname c hc
    have hbyte : (UInt8.ofNat c.toNat).toNat = c.toNat := by
      rw [UInt8.toNat_ofNat']
      omega
    rw [Text.CodePage437.char, if_pos (UInt8.lt_iff_toNat_lt.mpr (by rw [hbyte]; exact hascii)),
      hbyte, Char.ofNat_toNat]
  rw [encode_of_isAscii hname, Text.CodePage437.decode, List.map_map,
    List.map_congr_left (g := id) (by simpa using hchar), List.map_id, String.ofList_toList]

end Names

/-- What the directory says of a member whose local header starts at an offset. -/
def memberAt (offset : Nat) (part : Part) : Member :=
  ⟨part.name, false, part.method, (Crc32.checksum part.content).toNat, part.content.length,
    part.data.length, offset⟩

/-- What the directory says of members whose local records start at an offset. -/
def directory (offset : Nat) : List Part → List Member
  | [] => []
  | part :: rest => memberAt offset part :: directory (offset + (localRecord part).length) rest

section Records

variable {part : Part} {parts : List Part} {offset : Nat}

/-- A method is one of the two that are known. -/
theorem method_cases (part : Part) : part.method = 0 ∨ part.method = 8 :=
  part.stands.imp And.left And.left

/-- That a member fits into its records: its name is ASCII, and no number is too large for its
field. -/
structure Part.Fits (part : Part) : Prop where
  /-- The name is ASCII. -/
  ascii : IsAscii part.name
  /-- The name is not too long. -/
  short : part.nameBytes.length < 65536
  /-- The content is not too long. -/
  plain : part.content.length < 4294967296

instance (part : Part) : Decidable part.Fits :=
  decidable_of_iff (IsAscii part.name ∧ part.nameBytes.length < 65536 ∧
    part.content.length < 4294967296)
    ⟨fun ⟨ascii, short, plain⟩ => ⟨ascii, short, plain⟩,
      fun ⟨ascii, short, plain⟩ => ⟨ascii, short, plain⟩⟩

/-- A directory record is read back. -/
theorem read_directoryRecord (hfits : part.Fits) (hdata : part.data.length < 4294967296)
    (hoffset : offset < 4294967296) (back : Bytes) :
    Member.read 0 (directoryRecord offset part ++ back) = .ok (memberAt offset part, back) := by
  have hrecord : directoryRecord offset part ++ back =
      number 4 0x02014B50 ++ ((number 2 20 ++ number 2 20) ++ (number 2 0 ++
        (number 2 part.method ++ (number 4 0 ++ (number 4 (Crc32.checksum part.content).toNat ++
        (number 4 part.data.length ++ (number 4 part.content.length ++
        (number 2 part.nameBytes.length ++ (number 2 0 ++ (number 2 0 ++ (number 8 0 ++
        (number 4 offset ++ (part.nameBytes ++ back))))))))))))) := by
    simp only [directoryRecord, fields, List.append_assoc]
    rfl
  have hmethod : part.method < 256 ^ 2 := by
    rcases method_cases part with h | h <;> rw [h] <;> decide
  rw [hrecord]
  unfold Member.read
  refine bind_apply_eq_ok_iff.mpr ⟨_, _, Reader.number_number (by decide) _, ?_⟩
  rw [if_neg (by decide)]
  refine bind_apply_eq_ok_iff.mpr ⟨_, _, Reader.take_append (by simp) _, ?_⟩
  refine bind_apply_eq_ok_iff.mpr ⟨_, _, Reader.number_number (by decide) _, ?_⟩
  refine bind_apply_eq_ok_iff.mpr ⟨_, _, Reader.number_number hmethod _, ?_⟩
  refine bind_apply_eq_ok_iff.mpr ⟨_, _, Reader.take_append (by simp) _, ?_⟩
  refine bind_apply_eq_ok_iff.mpr ⟨_, _, Reader.number_number (UInt32.toNat_lt _) _, ?_⟩
  refine bind_apply_eq_ok_iff.mpr ⟨_, _, Reader.number_number hdata _, ?_⟩
  refine bind_apply_eq_ok_iff.mpr ⟨_, _, Reader.number_number hfits.plain _, ?_⟩
  refine bind_apply_eq_ok_iff.mpr ⟨_, _, Reader.number_number hfits.short _, ?_⟩
  refine bind_apply_eq_ok_iff.mpr ⟨_, _, Reader.number_number (by decide) _, ?_⟩
  refine bind_apply_eq_ok_iff.mpr ⟨_, _, Reader.number_number (by decide) _, ?_⟩
  refine bind_apply_eq_ok_iff.mpr ⟨_, _, Reader.take_append (by simp) _, ?_⟩
  refine bind_apply_eq_ok_iff.mpr ⟨_, _, Reader.number_number hoffset _, ?_⟩
  refine bind_apply_eq_ok_iff.mpr ⟨_, _, Reader.take_append rfl _, ?_⟩
  refine bind_apply_eq_ok_iff.mpr ⟨_, _, Reader.take_append (List.length_nil) _, ?_⟩
  refine bind_apply_eq_ok_iff.mpr ⟨_, _, Reader.take_append (List.length_nil) _, ?_⟩
  refine bind_apply_eq_ok_iff.mpr ⟨(memberAt offset part, false), back, ?_, ?_⟩
  · rw [if_neg (by decide), Part.nameBytes, decode_encode hfits.ascii]
    rfl
  · have hstart : ¬ Bytes.end64 ≤ (memberAt offset part).headerOffset + 0 := by
      simp only [memberAt, Bytes.end64]
      omega
    have hknown : ¬ ((memberAt offset part).method = encryptedMethod ∧ ¬ false = true) := by
      rcases method_cases part with h | h <;> simp [memberAt, encryptedMethod, h]
    simp only [if_neg hknown, if_neg hstart]
    rfl

/-- A local header takes thirty bytes beside the name, and the data follows. -/
theorem length_localRecord (part : Part) :
    (localRecord part).length = 30 + part.nameBytes.length + part.data.length := by
  simp [localRecord, fields]
  omega

/-- The directory records of members are read back. -/
theorem readAll_records (hfits : ∀ part ∈ parts, part.Fits)
    (hsmall : offset + (records offset parts).1.length < 4294967296)
    (found : Array Member) (back : Bytes) :
    Member.readAll 0 parts.length found ((records offset parts).2 ++ back) =
      .ok (found ++ (directory offset parts).toArray, back) := by
  induction parts generalizing offset found with
  | nil =>
    have hdone : Member.readAll 0 0 found back = .ok (found, back) := rfl
    simp [hdone, directory, records]
  | cons part rest ih =>
    obtain ⟨hfirst, hrest⟩ := List.forall_mem_cons.mp hfits
    have hlocal := length_localRecord part
    simp only [records, List.length_append] at hsmall
    have hrecord : ∀ back, Member.read 0 (directoryRecord offset part ++ back) =
        .ok (memberAt offset part, back) :=
      read_directoryRecord hfirst (by omega) (by omega)
    simp only [records, List.append_assoc, List.length_cons, Member.readAll]
    refine bind_apply_eq_ok_iff.mpr ⟨_, _, hrecord _, ?_⟩
    rw [ih hrest (by omega)]
    simp [directory]

end Records

section End

/-- The end of a directory of so many records and bytes, which starts at an offset. -/
def endRecord (count size offset : Nat) : Bytes :=
  number 4 0x06054B50 ++ number 4 0 ++ number 2 count ++ number 2 count ++ number 4 size ++
    number 4 offset ++ number 2 0

/-- The end of the directory of members. -/
def ending (parts : List Part) : Bytes :=
  endRecord parts.length (records 0 parts).2.length (records 0 parts).1.length

/-- An archive is the local records, the directory records and the end of the directory. -/
theorem archive_eq (parts : List Part) :
    archive parts = (records 0 parts).1 ++ (records 0 parts).2 ++ ending parts := by
  simp only [archive, ending, endRecord, List.append_assoc]

/-- Nothing is found where there is no room for the end of a directory. -/
theorem locate_of_short {bytes : Bytes} (hshort : bytes.length < 22) (position : Nat)
    (found : Option (Nat × Bytes)) : DirectoryEnd.locate position bytes found = found := by
  induction bytes generalizing position with
  | nil => rfl
  | cons byte rest ih =>
    rw [List.length_cons] at hshort
    have hmissing : Bytes.missing (DirectoryEnd.fixedSize - 1) rest ≠ 0 := by
      rw [ne_eq, Bytes.missing_eq_zero_iff, DirectoryEnd.fixedSize]
      omega
    simp only [DirectoryEnd.locate, beq_eq_false_iff_ne.mpr hmissing, Bool.and_false,
      Bool.false_eq_true, if_false]
    exact ih (by omega) _

/-- The end of the directory at the very end of an archive is found, whatever stands in front of
it. -/
theorem locate_append (front : Bytes) (count size offset position : Nat)
    (found : Option (Nat × Bytes)) :
    DirectoryEnd.locate position (front ++ endRecord count size offset) found =
      some (position + front.length, endRecord count size offset) := by
  induction front generalizing position found with
  | nil =>
    obtain ⟨tail, htail, hend⟩ : ∃ tail : Bytes, tail.length = 18 ∧
        endRecord count size offset = 0x50 :: 0x4B :: 0x05 :: 0x06 :: tail :=
      ⟨number 4 0 ++ number 2 count ++ number 2 count ++ number 4 size ++ number 4 offset ++
        number 2 0, by simp, by simp only [endRecord, List.append_assoc]; rfl⟩
    have hroom : Bytes.missing (DirectoryEnd.fixedSize - 1) (0x4B :: 0x05 :: 0x06 :: tail) = 0 := by
      rw [Bytes.missing_eq_zero_iff, DirectoryEnd.fixedSize]
      simp [htail]
    rw [List.nil_append, hend, DirectoryEnd.locate, hroom, locate_of_short (by simp [htail])]
    rfl
  | cons byte rest ih =>
    rw [List.cons_append, DirectoryEnd.locate, ih]
    simp
    omega

/-- The end of a directory is read back. -/
theorem read_endRecord {count size offset : Nat} (hcount : count < 65536)
    (hsize : size < 4294967296) (hoffset : offset < 4294967296) :
    ∃ isTooSmall, DirectoryEnd.read (endRecord count size offset) =
      .ok (⟨0, 0, count, isTooSmall, size, offset, 0⟩, []) := by
  have hend : endRecord count size offset = number 4 0x06054B50 ++ (number 2 0 ++ (number 2 0 ++
      (number 2 count ++ (number 2 count ++ (number 4 size ++ (number 4 offset ++
      (number 2 0 ++ []))))))) := by
    simp only [endRecord, List.append_assoc]
    rfl
  rw [hend]
  unfold DirectoryEnd.read
  refine ⟨[0, 0, count, count].contains 0xFFFF || [size, offset].contains allOnes32, ?_⟩
  refine bind_apply_eq_ok_iff.mpr ⟨_, _, Reader.take_append (by simp) _, ?_⟩
  refine bind_apply_eq_ok_iff.mpr ⟨_, _, Reader.number_number (by decide) _, ?_⟩
  refine bind_apply_eq_ok_iff.mpr ⟨_, _, Reader.number_number (by decide) _, ?_⟩
  refine bind_apply_eq_ok_iff.mpr ⟨_, _, Reader.number_number hcount _, ?_⟩
  refine bind_apply_eq_ok_iff.mpr ⟨_, _, Reader.number_number hcount _, ?_⟩
  refine bind_apply_eq_ok_iff.mpr ⟨_, _, Reader.number_number hsize _, ?_⟩
  refine bind_apply_eq_ok_iff.mpr ⟨_, _, Reader.number_number hoffset _, ?_⟩
  refine bind_apply_eq_ok_iff.mpr ⟨_, _, Reader.number_number (by decide) _, ?_⟩
  exact bind_apply_eq_ok_iff.mpr ⟨_, _, Reader.take_append List.length_nil _, rfl⟩

/-- A directory that stands in front of its end is found there, if no locator of another end is in
the way. -/
theorem ofEnd_eq {archive : Bytes} {count size offset : Nat} {isTooSmall : Bool}
    (hnone : Layout.locator? (archive.drop (archive.length - 42)) = none) :
    Layout.ofEnd archive (offset + size) ⟨0, 0, count, isTooSmall, size, offset, 0⟩ =
      .ok ⟨0, offset, count⟩ := by
  have hfound : (if Layout.locatorSize + DirectoryEnd.fixedSize ≤ archive.length then
      Layout.locator? (archive.drop (archive.length -
        (Layout.locatorSize + DirectoryEnd.fixedSize))) else none) = none := by
    split
    · exact hnone
    · rfl
  have hfits : size + offset ≤ offset + size := by omega
  have hshift : offset + size - size - offset = 0 := by omega
  simp only [Layout.ofEnd, hfound, if_pos hfits, hshift, Nat.add_zero]

end End

/-- That members fit into an archive without any extension of the format: each of them fits, there
are not too many, and the archive is not too large. -/
structure Fits (parts : List Part) : Prop where
  /-- Each member fits. -/
  each : ∀ part ∈ parts, part.Fits
  /-- There are not too many members. -/
  count : parts.length < 65536
  /-- The archive is not too large. -/
  small : (archive parts).length < 4294967296
  /-- Nothing in front of the end of the directory looks like the locator of another one. -/
  noLocator : Layout.locator? ((archive parts).drop ((archive parts).length - 42)) = none

variable {parts : List Part}

/-- The length of an archive is that of its parts. -/
theorem length_archive (parts : List Part) : (archive parts).length =
    (records 0 parts).1.length + (records 0 parts).2.length + 22 := by
  rw [archive_eq, List.length_append, List.length_append]
  simp [ending, endRecord]

/-- The search for the end of the directory finds it at the end of the archive. -/
theorem locate_archive (parts : List Part) :
    DirectoryEnd.locate ((archive parts).length - 22 - 0xFFFF)
      ((archive parts).drop ((archive parts).length - 22 - 0xFFFF)) none =
    some ((records 0 parts).1.length + (records 0 parts).2.length, ending parts) := by
  have hlength := length_archive parts
  have hearliest : (archive parts).length - 22 - 0xFFFF ≤
      ((records 0 parts).1 ++ (records 0 parts).2).length := by
    rw [List.length_append]
    omega
  have hdrop : (archive parts).drop ((archive parts).length - 22 - 0xFFFF) =
      ((records 0 parts).1 ++ (records 0 parts).2).drop ((archive parts).length - 22 - 0xFFFF) ++
        ending parts := by
    rw [← List.drop_append_of_le_length hearliest, ← archive_eq]
  rw [hdrop, ending, locate_append, List.length_drop, List.length_append]
  simp only [Option.some.injEq, Prod.mk.injEq, and_true]
  omega

/-- The directory of a plain archive is read back. -/
theorem members_archive (hfits : Fits parts) :
    Zip.members (archive parts) = .ok (directory 0 parts) := by
  have hlength := length_archive parts
  have hsmall := hfits.small
  obtain ⟨isTooSmall, hend⟩ : ∃ isTooSmall, DirectoryEnd.read (ending parts) =
      .ok (⟨0, 0, parts.length, isTooSmall, (records 0 parts).2.length,
        (records 0 parts).1.length, 0⟩, []) :=
    read_endRecord hfits.count (by omega) (by omega)
  have hrecords : Member.readAll 0 parts.length #[]
      ((archive parts).drop (records 0 parts).1.length) =
      .ok (#[] ++ (directory 0 parts).toArray, ending parts) := by
    rw [archive_eq, List.append_assoc, List.drop_left' rfl]
    exact readAll_records hfits.each (by omega) _ _
  have hlong : ¬ (archive parts).length < 22 := by omega
  unfold Zip.members
  simp only [DirectoryEnd.fixedSize, if_neg hlong, locate_archive]
  refine bind_eq_ok_iff.mpr ⟨_, hend, ?_⟩
  rw [if_neg (by simp)]
  refine bind_eq_ok_iff.mpr ⟨_, ofEnd_eq hfits.noLocator, ?_⟩
  exact bind_eq_ok_iff.mpr ⟨_, hrecords, by simp [pure, Except.pure]⟩

section Contents

/-- A number is found at the offset of the bytes that it was written in. -/
theorem numberAt_eq {archive : Bytes} {offset count value : Nat} (before after : Bytes)
    (harchive : archive = before ++ (number count value ++ after))
    (hoffset : offset = before.length) (hfits : value < 256 ^ count) :
    numberAt archive offset count = value := by
  rw [numberAt, harchive, hoffset, List.drop_left' rfl, List.take_left' (length_number count value),
    littleEndian_number hfits]

/-- What a local header says in front of the lengths of the name and the extra field. -/
def headerStart (part : Part) : Bytes :=
  number 4 0x04034B50 ++ number 2 20 ++ number 2 0 ++ number 2 part.method ++ number 4 0 ++
    number 4 (Crc32.checksum part.content).toNat ++ number 4 part.data.length ++
    number 4 part.content.length

/-- The member whose local header stands behind some bytes can be opened, and holds its content. -/
theorem memberAt_holds (front back : Bytes) {part : Part}
    (hshort : part.nameBytes.length < 65536) :
    (memberAt front.length part).Opens (front ++ (localRecord part ++ back)) ∧
      (memberAt front.length part).Gives (front ++ (localRecord part ++ back))
        (.content part.content) := by
  generalize harchive : front ++ (localRecord part ++ back) = archive
  have hstart : (headerStart part).length = 26 := by simp [headerStart]
  have hparts : archive = front ++ (headerStart part ++ (number 2 part.nameBytes.length ++
      (number 2 0 ++ (part.nameBytes ++ (part.data ++ back))))) := by
    rw [← harchive]
    simp only [localRecord, fields, headerStart, List.append_assoc]
  have hsignature : numberAt archive front.length 4 = 0x04034B50 := by
    refine numberAt_eq front (((headerStart part).drop 4) ++ (number 2 part.nameBytes.length ++
      (number 2 0 ++ (part.nameBytes ++ (part.data ++ back))))) ?_ rfl (by decide)
    rw [hparts]
    rfl
  have hname : numberAt archive (front.length + 26) 2 = part.nameBytes.length := by
    refine numberAt_eq (front ++ headerStart part)
      (number 2 0 ++ (part.nameBytes ++ (part.data ++ back))) ?_ (by simp [hstart]) hshort
    simp only [hparts, List.append_assoc]
  have hextra : numberAt archive (front.length + 28) 2 = 0 := by
    refine numberAt_eq (front ++ headerStart part ++ number 2 part.nameBytes.length)
      (part.nameBytes ++ (part.data ++ back)) ?_ (by simp [hstart]) (by decide)
    simp only [hparts, List.append_assoc]
  have hdata : (memberAt front.length part).storedData archive = part.data := by
    have hbefore : archive = (front ++ headerStart part ++ number 2 part.nameBytes.length ++
        number 2 0 ++ part.nameBytes) ++ (part.data ++ back) := by
      simp only [hparts, List.append_assoc]
    have hlength : front.length + 30 + part.nameBytes.length + 0 = (front ++ headerStart part ++
        number 2 part.nameBytes.length ++ number 2 0 ++ part.nameBytes).length := by
      simp [hstart]
      omega
    rw [Member.storedData, Member.dataStart, memberAt, hname, hextra, hlength]
    conv_lhs => rw [hbefore]
    rw [List.drop_left' rfl, List.take_left' rfl]
  have hreaches : front.length + 30 ≤ archive.length := by
    rw [hparts]
    simp [hstart]
    omega
  refine ⟨⟨rfl, method_cases part, hreaches, hsignature⟩, ?_⟩
  have hholds : (memberAt front.length part).StandsFor archive part.content := by
    rcases part.stands with ⟨hmethod, hcontent⟩ | ⟨hmethod, hcontent⟩
    · have hitself : (memberAt front.length part).StandsFor archive _ := .itself hmethod
      rwa [hdata, hcontent] at hitself
    · exact .inflated hmethod (by rw [hdata, hcontent])
  exact .content hholds rfl

/-- The members whose local records stand behind some bytes can be opened, and hold their
contents. -/
theorem directory_holds {parts : List Part} (front back : Bytes)
    (hfits : ∀ part ∈ parts, part.Fits) :
    List.Forall₂ (fun member part =>
        member.Opens (front ++ ((records front.length parts).1 ++ back)) ∧
        member.name = part.name ∧
        member.Gives (front ++ ((records front.length parts).1 ++ back)) (.content part.content))
      (directory front.length parts) parts := by
  induction parts generalizing front with
  | nil => exact .nil
  | cons part rest ih =>
    obtain ⟨hfirst, hfits⟩ := List.forall_mem_cons.mp hfits
    have hrest := ih (front ++ localRecord part) hfits
    have hrecords : front ++ ((records front.length (part :: rest)).1 ++ back) =
        front ++ (localRecord part ++
          ((records (front.length + (localRecord part).length) rest).1 ++ back)) := by
      simp only [records, List.append_assoc]
    simp only [List.length_append, List.append_assoc] at hrest
    rw [hrecords]
    obtain ⟨hopens, hgives⟩ := memberAt_holds front _ hfirst.short
    exact .cons ⟨hopens, rfl, hgives⟩ hrest

end Contents

/-- A plain archive is read as one whose members have the names and hold the contents that were
packed, in this order. -/
theorem archive_holds (hfits : Fits parts) :
    ∃ members, IsArchive (archive parts) members ∧ List.Forall₂ (fun member part =>
      member.name = part.name ∧ member.Gives (archive parts) (.content part.content))
      members parts := by
  have hholds := directory_holds [] ((records 0 parts).2 ++ ending parts) hfits.each
  rw [List.nil_append, List.length_nil, ← List.append_assoc, ← archive_eq] at hholds
  obtain ⟨hopens, hgives⟩ := (List.forall₂_and_left _ _).mp hholds
  exact ⟨directory 0 parts, ⟨members_archive hfits, hopens⟩, hgives⟩

/-- What is related to the items of a list, item by item, is related to the one at its position. -/
theorem exists_getElem?_of_forall₂ {α β : Type} {R : α → β → Prop} {items : List α}
    {others : List β} (hrelated : List.Forall₂ R items others) {index : Nat} {other : β}
    (hother : others[index]? = some other) : ∃ item, items[index]? = some item ∧ R item other := by
  obtain ⟨hindex, rfl⟩ := List.getElem?_eq_some_iff.mp hother
  have hitems : index < items.length := by rwa [hrelated.length_eq]
  exact ⟨items[index], List.getElem?_eq_getElem hitems, hrelated.get hitems hindex⟩

/-- The member at a position of a plain archive has the name and the content that were packed
there. -/
theorem exists_member_of_archive (hfits : Fits parts) {index : Nat} {part : Part}
    (hpart : parts[index]? = some part) :
    ∃ members member, IsArchive (archive parts) members ∧ members[index]? = some member ∧
      member.name = part.name ∧ member.Gives (archive parts) (.content part.content) := by
  obtain ⟨members, harchive, hholds⟩ := archive_holds hfits
  obtain ⟨member, hmember, hname, hgives⟩ := exists_getElem?_of_forall₂ hholds hpart
  exact ⟨members, member, harchive, hmember, hname, hgives⟩

end Packing

end JarCensus.Zip
