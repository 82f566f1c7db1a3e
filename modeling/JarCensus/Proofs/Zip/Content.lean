import JarCensus.Proofs.Success
import JarCensus.Proofs.Zip.Crc32
import JarCensus.Zip.Content

/-!
# Opening and reading members

A member is opened exactly when it can be, at the data behind its local header, and the stream of
an opened member gives what the member holds.
-/

namespace JarCensus.Zip

variable {archive : Bytes} {member : Member} {item : Item} {stream : Stream}

section Reader

variable {bytes rest : Bytes} {count : Nat}

/-- Bytes are taken exactly when there are enough of them. -/
theorem Reader.take_eq_ok_iff {front : Bytes} : Reader.take count bytes = .ok (front, rest) ↔
    count ≤ bytes.length ∧ front = bytes.take count ∧ rest = bytes.drop count := by
  unfold Reader.take Bytes.split?
  rw [← Bytes.missing_eq_zero_iff]
  by_cases henough : Bytes.missing count bytes = 0 <;> simp [henough, eq_comm]

/-- A number is taken exactly when there are enough bytes for it. -/
theorem Reader.number_eq_ok_iff {value : Nat} :
    Reader.number count bytes = .ok (value, rest) ↔ count ≤ bytes.length ∧
      value = Bytes.littleEndian (bytes.take count) ∧ rest = bytes.drop count := by
  unfold Reader.number
  cases htaken : Reader.take count bytes with
  | error fault =>
    have hshort : ¬ count ≤ bytes.length := by
      intro henough
      cases htaken.symm.trans (Reader.take_eq_ok_iff.mpr ⟨henough, rfl, rfl⟩)
    simp [Functor.map, StateT.map, bind, Except.bind, htaken, hshort]
  | ok taken =>
    obtain ⟨henough, hfront, hrest⟩ := Reader.take_eq_ok_iff.mp htaken
    simp [Functor.map, StateT.map, bind, Except.bind, pure, Except.pure, htaken, henough, hfront,
      hrest, eq_comm]

end Reader

/-- A local header is read exactly when all of it is there and it has its signature. -/
theorem localHeader_eq_ok_iff {bytes rest : Bytes} {gap : Nat} :
    localHeader bytes = .ok (gap, rest) ↔ 30 ≤ bytes.length ∧
      Bytes.littleEndian (bytes.take 4) = 0x04034B50 ∧
      gap = Bytes.littleEndian ((bytes.drop 26).take 2) +
        Bytes.littleEndian ((bytes.drop 28).take 2) ∧
      rest = bytes.drop 30 := by
  unfold localHeader
  constructor
  · intro hread
    obtain ⟨signature, afterSignature, hsignature, hread⟩ := bind_apply_eq_ok_iff.mp hread
    obtain ⟨-, rfl, rfl⟩ := Reader.number_eq_ok_iff.mp hsignature
    split at hread
    · obtain ⟨_, _, hthrow, -⟩ := bind_apply_eq_ok_iff.mp hread
      cases hthrow
    · rename_i hsigned
      obtain ⟨_, afterFields, hfields, hread⟩ := bind_apply_eq_ok_iff.mp hread
      obtain ⟨-, rfl, rfl⟩ := Reader.take_eq_ok_iff.mp hfields
      obtain ⟨nameLength, afterName, hname, hread⟩ := bind_apply_eq_ok_iff.mp hread
      obtain ⟨-, rfl, rfl⟩ := Reader.number_eq_ok_iff.mp hname
      obtain ⟨extraLength, afterExtra, hextra, hread⟩ := bind_apply_eq_ok_iff.mp hread
      obtain ⟨henough, rfl, rfl⟩ := Reader.number_eq_ok_iff.mp hextra
      cases hread
      simp only [List.length_drop] at henough
      refine ⟨by omega, Decidable.not_not.mp hsigned, ?_, ?_⟩ <;> simp only [List.drop_drop]
  · rintro ⟨henough, hsigned, rfl, rfl⟩
    refine bind_apply_eq_ok_iff.mpr ⟨_, _, Reader.number_eq_ok_iff.mpr ⟨by omega, rfl, rfl⟩, ?_⟩
    rw [if_neg (Decidable.not_not.mpr hsigned)]
    refine bind_apply_eq_ok_iff.mpr
      ⟨_, _, Reader.take_eq_ok_iff.mpr ⟨by simp; omega, rfl, rfl⟩, ?_⟩
    refine bind_apply_eq_ok_iff.mpr
      ⟨_, _, Reader.number_eq_ok_iff.mpr ⟨by simp; omega, rfl, rfl⟩, ?_⟩
    refine bind_apply_eq_ok_iff.mpr
      ⟨_, _, Reader.number_eq_ok_iff.mpr ⟨by simp; omega, rfl, rfl⟩, ?_⟩
    simp only [List.drop_drop]
    rfl

section Members

variable {archive : Bytes} {member : Member} {item : Item} {stream : Stream}

/-- The numbers of the methods that are known. -/
theorem ofNumber?_eq_some_iff {number : Nat} {method : Method} :
    Method.ofNumber? number = some method ↔
      number = 0 ∧ method = .stored ∨ number = 8 ∧ method = .deflated := by
  unfold Method.ofNumber?
  split <;> simp_all [eq_comm]

/-- The local header of a member is read exactly when it is where the directory says. -/
theorem localHeader_member_iff {gap : Nat} :
    (∃ rest, localHeader (archive.toArray.extract member.headerOffset
      (member.headerOffset + localHeaderSize)).toList = .ok (gap, rest)) ↔
      member.headerOffset + 30 ≤ archive.length ∧
      numberAt archive member.headerOffset 4 = 0x04034B50 ∧
      gap = numberAt archive (member.headerOffset + 26) 2 +
        numberAt archive (member.headerOffset + 28) 2 := by
  have hheader : (archive.toArray.extract member.headerOffset
      (member.headerOffset + localHeaderSize)).toList =
      (archive.drop member.headerOffset).take 30 := by
    simp [localHeaderSize]
  have hfield : ∀ offset count, offset + count ≤ 30 →
      ((((archive.drop member.headerOffset).take 30).drop offset).take count) =
        (archive.drop (member.headerOffset + offset)).take count := by
    intro offset count hfits
    rw [List.drop_take, List.take_take, List.drop_drop, Nat.min_eq_left (by omega)]
  have hfront := hfield 0 4 (by omega)
  rw [List.drop_zero, Nat.add_zero] at hfront
  simp only [hheader, localHeader_eq_ok_iff, exists_and_left, exists_eq, and_true, hfront,
    hfield 26 2 (by omega), hfield 28 2 (by omega), List.length_take, List.length_drop, numberAt]
  refine and_congr_left fun _ => ?_
  omega

/-- A member is opened exactly when it can be, at the data behind its local header. -/
theorem find_eq_ok_iff : Item.find archive.toArray member = .ok item ↔
    member.Opens archive ∧ item.member = member ∧
      Method.ofNumber? member.method = some item.method ∧
      item.start = member.dataStart archive := by
  unfold Item.find
  cases hplain : member.isEncrypted with
  | true =>
    refine iff_of_false nofun ?_
    rintro ⟨hopens, -⟩
    cases hplain.symm.trans hopens.isPlain
  | false =>
    simp only [Bool.false_eq_true, if_false]
    constructor
    · intro hfind
      obtain ⟨⟨gap, rest⟩, hheader, hfind⟩ := bind_eq_ok_iff.mp hfind
      obtain ⟨hreaches, hsignature, rfl⟩ := localHeader_member_iff.mp ⟨rest, hheader⟩
      simp only at hfind
      split at hfind
      · cases hfind
      · rename_i method hmethod
        cases hfind
        refine ⟨⟨hplain, ?_, hreaches, hsignature⟩, rfl, hmethod, ?_⟩
        · exact (ofNumber?_eq_some_iff.mp hmethod).imp And.left And.left
        · simp only [Member.dataStart, localHeaderSize, Nat.add_assoc]
    · rintro ⟨hopens, hmember, hmethod, hstart⟩
      obtain ⟨rest, hheader⟩ := localHeader_member_iff.mpr ⟨hopens.reaches, hopens.signature, rfl⟩
      refine bind_eq_ok_iff.mpr ⟨_, hheader, ?_⟩
      obtain ⟨member', method, start⟩ := item
      simp only at hmember hmethod hstart
      subst hmember hstart
      simp only [hmethod, Member.dataStart, localHeaderSize, Nat.add_assoc]
      rfl

/-- A member can be opened exactly when it is. -/
theorem exists_find_iff :
    (∃ item, Item.find archive.toArray member = .ok item) ↔ member.Opens archive := by
  simp only [find_eq_ok_iff]
  constructor
  · rintro ⟨item, hopens, -⟩
    exact hopens
  · intro hopens
    obtain ⟨method, hmethod⟩ : ∃ method, Method.ofNumber? member.method = some method := by
      rcases hopens.known with h | h <;> rw [h] <;> exact ⟨_, rfl⟩
    exact ⟨⟨member, method, _⟩, hopens, rfl, hmethod, rfl⟩

/-- The data of a member stands for no two byte strings. -/
theorem Member.StandsFor.unique {plain other : Bytes} (hplain : member.StandsFor archive plain)
    (hother : member.StandsFor archive other) : plain = other := by
  cases hplain with
  | itself hmethod =>
    cases hother with
    | itself => rfl
    | inflated hmethod' => cases hmethod.symm.trans hmethod'
  | inflated hmethod hplain =>
    cases hother with
    | itself hmethod' => cases hmethod.symm.trans hmethod'
    | inflated _ hother => exact Except.ok.inj (hplain.symm.trans hother)

/-- Data that is corrupt stands for nothing. -/
theorem Member.StandsFor.ne_error {plain : Bytes} {fault : Inflate.Fault}
    (hplain : member.StandsFor archive plain) (hmethod : member.method = 8) :
    Inflate.inflate (member.storedData archive) ≠ .error fault := by
  intro hfault
  cases hplain with
  | itself hmethod' => cases hmethod'.symm.trans hmethod
  | inflated _ hplain => cases hplain.symm.trans hfault

/-- A member holds one thing. -/
theorem Member.Gives.unique {other : Stream} (hgives : member.Gives archive stream)
    (hother : member.Gives archive other) : stream = other := by
  cases hgives with
  | content hplain hcheck =>
    cases hother with
    | content hplain' => rw [hplain.unique hplain']
    | mismatch hplain' hcheck' => exact absurd (hplain.unique hplain' ▸ hcheck) hcheck'
    | corrupt hmethod hfault => exact absurd hfault (hplain.ne_error hmethod)
  | mismatch hplain hcheck =>
    cases hother with
    | content hplain' hcheck' => exact absurd (hplain'.unique hplain ▸ hcheck') hcheck
    | mismatch => rfl
    | corrupt hmethod hfault => exact absurd hfault (hplain.ne_error hmethod)
  | corrupt hmethod hfault =>
    cases hother with
    | content hplain => exact absurd hfault (hplain.ne_error hmethod)
    | mismatch hplain => exact absurd hfault (hplain.ne_error hmethod)
    | corrupt _ hfault' => rw [Except.error.inj (hfault.symm.trans hfault')]

/-- The stream of an opened member gives what the member holds. -/
theorem gives_stream (hfind : Item.find archive.toArray member = .ok item) :
    member.Gives archive (item.stream archive.toArray) := by
  obtain ⟨-, hmember, hmethod, hstart⟩ := find_eq_ok_iff.mp hfind
  have hdata : item.data archive.toArray = member.storedData archive := by
    simp [Item.data, Member.storedData, hmember, hstart]
  -- Bytes that the data stands for are given when they have the check value.
  have hchecked : ∀ plain, member.StandsFor archive plain →
      (item.plainData archive.toArray =
        if (Crc32.checksum plain).toNat = member.checksum then .ok plain
        else .error .invalidChecksum) → member.Gives archive (item.stream archive.toArray) := by
    intro plain hplain hread
    unfold Item.stream
    rw [hread]
    by_cases hcheck : (Crc32.checksum plain).toNat = member.checksum
    · rw [if_pos hcheck]
      exact .content hplain hcheck
    · rw [if_neg hcheck]
      exact .mismatch hplain hcheck
  rcases ofNumber?_eq_some_iff.mp hmethod with ⟨hnumber, hkind⟩ | ⟨hnumber, hkind⟩
  · refine hchecked _ (.itself hnumber) ?_
    simp only [Item.plainData, hkind, hdata, hmember]
    rfl
  · cases hinflated : Inflate.inflate (member.storedData archive) with
    | ok plain =>
      refine hchecked plain (.inflated hnumber hinflated) ?_
      simp only [Item.plainData, hkind, hdata, hinflated, hmember]
      rfl
    | error fault =>
      have hread : item.plainData archive.toArray = .error (.compression fault) := by
        simp only [Item.plainData, hkind, hdata, hinflated]
        rfl
      unfold Item.stream
      rw [hread]
      exact .corrupt hnumber hinflated

/-- The stream of an opened member is what the member holds. -/
theorem gives_iff (hfind : Item.find archive.toArray member = .ok item) :
    member.Gives archive stream ↔ item.stream archive.toArray = stream := by
  constructor
  · exact fun hgives => (gives_stream hfind).unique hgives
  · rintro rfl
    exact gives_stream hfind

/-- A member gives nothing when its data stands for other bytes than its check value is of, in one
place. -/
theorem Member.gives_of_changed {front back : Bytes} {byte other : UInt8}
    (hcheck : (Crc32.checksum (front ++ byte :: back)).toNat = member.checksum)
    (hchanged : byte ≠ other) (hplain : member.StandsFor archive (front ++ other :: back)) :
    member.Gives archive (.unopenable "Invalid checksum") := by
  refine .mismatch hplain fun hsame => hchanged ?_
  exact Crc32.checksum_append_cons_inj.mp (UInt32.toNat_inj.mp (hcheck.trans hsame.symm))

/-- An archive has one directory. -/
theorem IsArchive.unique {members others : List Member} (harchive : IsArchive archive members)
    (hother : IsArchive archive others) : members = others :=
  Except.ok.inj (harchive.directory.symm.trans hother.directory)

end Members

end JarCensus.Zip
