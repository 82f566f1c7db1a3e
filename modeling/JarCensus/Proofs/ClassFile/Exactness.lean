import JarCensus.ClassFile.Encoding.File
import JarCensus.Proofs.ClassFile.Constants
import JarCensus.Proofs.ClassFile.Tables

/-!
# Exactness of class-file reading

The reader accepts exactly the encoded forms of well-formed class files and gives what
they mean. Every part of a file has its own statement, in the order in which the parts
stand in the file.
-/

namespace JarCensus.ClassFile

open Reader

/-- The header is read exactly from the magic word and a supported version. -/
theorem accepts_readHeader : readHeader.Accepts fun bytes _ => ∃ minor major,
    (oldestVersion ≤ major ∧ major ≤ newestVersion) ∧
      bytes = Bytes.ofWord32 magic ++ Bytes.ofWord16 minor ++ Bytes.ofWord16 major := by
  have hread : readHeader = (word32 >>= fun word => if word ≠ magic then throw (.wrongMagic word)
      else word16 >>= fun minor => word16 >>= fun major =>
        if major < oldestVersion ∨ newestVersion < major then throw (.unknownVersion major minor)
        else pure ()) := by
    unfold readHeader
    congr 1
  rw [hread]
  refine (accepts_word32.bind fun word => Accepts.guard (accepts_word16.bind fun minor =>
    accepts_word16.bind fun major => Accepts.guard (accepts_pure ()))).congr fun bytes _ => ?_
  constructor
  · rintro ⟨word, _, _, rfl, rfl, hword, minor, _, _, rfl, rfl, major, _, _, rfl, rfl, hversion,
      rfl, -⟩
    obtain rfl := Decidable.not_not.mp hword
    refine ⟨minor, major, ?_, by simp⟩
    simpa [not_or] using hversion
  · rintro ⟨minor, major, hversion, rfl⟩
    refine ⟨magic, _, Bytes.ofWord16 minor ++ Bytes.ofWord16 major, by simp, rfl, by simp, minor, _,
      Bytes.ofWord16 major, rfl, rfl, major, _, [], by simp, rfl, ?_, rfl, rfl⟩
    simpa [not_or] using hversion

/-- An attribute that nothing interprets is any name and any content whose length fits its
word. -/
theorem accepts_passAttribute : passAttribute.Accepts fun bytes _ =>
    ∃ item : Attribute, item.WellFormed ∧ bytes = item.encode := by
  refine (accepts_pass_word.bind fun _ => accepts_word32.bind fun length =>
    accepts_pass length.toNat).congr fun bytes _ => ?_
  constructor
  · rintro ⟨_, _, _, rfl, ⟨name, rfl⟩, length, _, content, rfl, rfl, hlength⟩
    have hword := length.toNat_lt
    refine ⟨⟨name, content⟩, ?_, ?_⟩
    · exact show content.length < 4294967296 by omega
    · simp [Attribute.encode, hlength]
  · rintro ⟨⟨name, content⟩, hformed, rfl⟩
    refine ⟨(), _, Bytes.ofWord32 (.ofNat content.length) ++ content, ?_, ⟨name, rfl⟩, _, _,
      content, rfl, rfl, ?_⟩
    · simp [Attribute.encode]
    · exact (UInt32.toNat_ofNat_of_lt' hformed).symm

/-- A field or a method is passed over exactly when its counts and lengths fit their words. -/
theorem accepts_passMember : passMember.Accepts fun bytes _ =>
    ∃ member : Member, member.WellFormed ∧ bytes = member.encode := by
  refine ((accepts_pass_words 3).bind fun _ => Accepts.countedTimes accepts_passAttribute).congr
    fun bytes _ => ?_
  constructor
  · rintro ⟨_, _, _, rfl, ⟨words, hwords, rfl⟩, attributes, hcount, hformed, rfl⟩
    obtain ⟨access, name, descriptor, rfl⟩ := List.length_eq_three.mp hwords
    refine ⟨⟨access, name, descriptor, attributes⟩, ⟨hcount, hformed⟩, ?_⟩
    simp [Member.encode]
  · rintro ⟨⟨access, name, descriptor, attributes⟩, ⟨hcount, hformed⟩, rfl⟩
    refine ⟨(), _, _, ?_, ⟨[access, name, descriptor], rfl, rfl⟩, attributes, hcount, hformed, rfl⟩
    simp [Member.encode]

/-- Fields or methods are passed over as a counted list. -/
theorem accepts_passMembers : passMembers.Accepts fun bytes _ => ∃ members : List Member,
    members.length < 65536 ∧ (∀ member ∈ members, member.WellFormed) ∧
      bytes = encodeMembers members :=
  Accepts.countedTimes accepts_passMember

/-- The references are read exactly from the flags, the slots of the class and its parent, and
counted slots of interfaces. -/
theorem accepts_readReferences : readReferences.Accepts fun bytes thisClass =>
    ∃ (access superClass : UInt16) (interfaces : List UInt16), interfaces.length < 65536 ∧
      bytes = Bytes.ofWord16 access ++ Bytes.ofWord16 thisClass ++ Bytes.ofWord16 superClass ++
        Bytes.ofWord16 (.ofNat interfaces.length) ++ interfaces.flatMap Bytes.ofWord16 := by
  refine (accepts_pass_word.bind fun _ => accepts_word16.bind fun thisClass =>
    accepts_pass_word.bind fun _ => accepts_word16.bind fun interfaces =>
    (accepts_pass_words interfaces.toNat).bind fun _ => accepts_pure thisClass).congr
    fun bytes thisClass => ?_
  constructor
  · rintro ⟨_, _, _, rfl, ⟨access, rfl⟩, _, _, _, rfl, rfl, _, _, _, rfl, ⟨superClass, rfl⟩,
      count, _, _, rfl, rfl, _, _, _, rfl, ⟨interfaces, hcount, rfl⟩, rfl, rfl⟩
    have hword := count.toNat_lt
    exact ⟨access, superClass, interfaces, by omega, by simp [hcount]⟩
  · rintro ⟨access, superClass, interfaces, hcount, rfl⟩
    have hword : interfaces.length = (UInt16.ofNat interfaces.length).toNat :=
      (UInt16.toNat_ofNat_of_lt' hcount).symm
    simp only [List.append_assoc]
    exact ⟨(), _, _, rfl, ⟨access, rfl⟩, thisClass, _, _, rfl, rfl, (), _, _, rfl,
      ⟨superClass, rfl⟩, _, _, _, rfl, rfl, (), _, [], by simp, ⟨interfaces, hword, rfl⟩, rfl, rfl⟩

/-- What stands before the attributes of the class is read exactly when it is well formed, for
the pool of its constants and the name of its class. -/
theorem accepts_readHead : readHead.Accepts fun bytes result => ∃ file : ClassFile,
    file.HeadWellFormed ∧ bytes = file.encodeHead ∧ result.1 = file.pool ∧
      file.pool.className file.thisClass = .ok result.2 := by
  refine (accepts_readHeader.bind fun _ => ConstantPool.accepts_read.bind fun pool =>
    accepts_readReferences.bind fun thisClass => accepts_passMembers.bind fun _ =>
    accepts_passMembers.bind fun _ => (accepts_lift (pool.className thisClass)).bind fun name =>
    accepts_pure (pool, name)).congr fun bytes result => ?_
  constructor
  · rintro ⟨_, _, _, rfl, ⟨minor, major, hversion, rfl⟩, pool, _, _, rfl,
      ⟨count, constants, hconstants, hslots, rfl, rfl⟩, thisClass, _, _, rfl,
      ⟨access, superClass, interfaces, hinterfaces, rfl⟩, _, _, _, rfl,
      ⟨fields, hfieldCount, hfields, rfl⟩, _, _, _, rfl, ⟨methods, hmethodCount, hmethods, rfl⟩,
      name, _, _, rfl, ⟨rfl, hname⟩, rfl, rfl⟩
    let file : ClassFile := ⟨minor, major, count, constants, access, thisClass, superClass,
      interfaces, fields, methods, []⟩
    refine ⟨file, ?_, by simp [encodeHead, file], rfl, hname⟩
    exact ⟨hversion, hconstants, hslots, hinterfaces, hfieldCount, hfields, hmethodCount, hmethods,
      name, hname⟩
  · obtain ⟨pool, name⟩ := result
    rintro ⟨file, hformed, rfl, rfl, hname⟩
    have hbytes : file.encodeHead =
        (Bytes.ofWord32 magic ++ Bytes.ofWord16 file.minor ++ Bytes.ofWord16 file.major) ++
          ((Bytes.ofWord16 file.slotCount ++ file.constants.flatMap Constant.encode) ++
          ((Bytes.ofWord16 file.access ++ Bytes.ofWord16 file.thisClass ++
            Bytes.ofWord16 file.superClass ++ Bytes.ofWord16 (.ofNat file.interfaces.length) ++
            file.interfaces.flatMap Bytes.ofWord16) ++
          (encodeMembers file.fields ++ (encodeMembers file.methods ++ [])))) := by
      simp [encodeHead]
    exact ⟨(), _, _, hbytes, ⟨file.minor, file.major, hformed.version, rfl⟩, file.pool, _, _, rfl,
      ⟨file.slotCount, file.constants, hformed.constants, hformed.slots, rfl, rfl⟩,
      file.thisClass, _, _, rfl,
      ⟨file.access, file.superClass, file.interfaces, hformed.interfaces, rfl⟩, (), _, _, rfl,
      ⟨file.fields, hformed.fieldCount, hformed.fields, rfl⟩, (), _, _, rfl,
      ⟨file.methods, hformed.methodCount, hformed.methods, rfl⟩, name, [], [], rfl,
      ⟨rfl, hname⟩, rfl, rfl⟩

/-- The content of an attribute is read as its name demands: as a table that fills it when it
lists the annotations visible at run time, and not at all otherwise. -/
theorem readContent_eq_ok_iff {pool : ConstantPool} {nameIndex : UInt16} {body : Cursor}
    {names result : Array String} : (pool.utf8 nameIndex >>= fun name =>
        if name = visibleAnnotations then readTable pool body names else pure names) = .ok result ↔
      ∃ item : ClassAttribute, item.Readable pool ∧
        item.toAttribute = ⟨nameIndex, body.rest⟩ ∧ result = names ++ item.names pool := by
  constructor
  · intro h
    cases hname : pool.utf8 nameIndex with
    | error fault => simp [hname, bind, Except.bind] at h
    | ok name =>
      simp only [hname, bind, Except.bind] at h
      split at h
      · rename_i hvisible
        obtain ⟨entries, hformed, hdepth, hrest, rfl⟩ := readTable_eq_ok_iff.mp h
        refine ⟨.table nameIndex entries, ⟨?_, hformed, hdepth⟩, ?_, rfl⟩
        · rw [hname, hvisible]
        · rw [hrest]
          rfl
      · rename_i hother
        obtain rfl := by simpa [pure, Except.pure] using h
        exact ⟨.plain ⟨nameIndex, body.rest⟩, ⟨name, hname, hother⟩, rfl,
          by simp [ClassAttribute.names]⟩
  · rintro ⟨item, hreadable, hitem, rfl⟩
    cases item with
    | table name entries =>
      obtain ⟨hname, hformed, hdepth⟩ := hreadable
      obtain ⟨rfl, hrest⟩ := Attribute.mk.inj hitem
      simp only [hname, bind, Except.bind, if_true]
      exact readTable_eq_ok_iff.mpr ⟨entries, hformed, hdepth, hrest.symm, rfl⟩
    | plain item =>
      obtain ⟨text, htext, hother⟩ := hreadable
      obtain rfl : item = ⟨nameIndex, body.rest⟩ := hitem
      simp [htext, hother, bind, Except.bind, pure, Except.pure, ClassAttribute.names]

/-- An attribute of the class is read exactly when its name is a text of the pool and its
content can be read as that name demands, and its annotation names are added. -/
theorem accepts_readAttribute (pool : ConstantPool) (names : Array String) :
    (readAttribute pool names).Accepts fun bytes result => ∃ item : ClassAttribute,
      item.WellFormed pool ∧ bytes = item.encode ∧ result = names ++ item.names pool := by
  let content (nameIndex : UInt16) (content rest : Bytes) (result : Array String) : Prop :=
    rest = [] ∧ ∃ item : ClassAttribute, item.Readable pool ∧
      item.toAttribute = ⟨nameIndex, content⟩ ∧ result = names ++ item.names pool
  have hcontent : ∀ (nameIndex : UInt16) (body : Cursor), Accepts
      (liftM (pool.utf8 nameIndex >>= fun name =>
        if name = visibleAnnotations then readTable pool body names else pure names))
      (content nameIndex body.rest) :=
    fun nameIndex body => (accepts_lift _).congr fun bytes result =>
      and_congr_right fun _ => readContent_eq_ok_iff
  have hread : readAttribute pool names = (word16 >>= fun nameIndex => word32 >>= fun length =>
      Reader.body length.toNat >>= fun body => liftM (pool.utf8 nameIndex >>= fun name =>
        if name = visibleAnnotations then readTable pool body names else pure names)) := by
    simp only [readAttribute, liftM_bind, apply_ite liftM]
    rfl
  rw [hread]
  refine (accepts_word16.bind fun nameIndex => accepts_word32.bind fun length =>
    Accepts.body (content nameIndex) length.toNat (hcontent nameIndex)).congr fun bytes result => ?_
  constructor
  · rintro ⟨nameIndex, _, _, rfl, rfl, length, _, _, rfl, rfl, content, _, rfl, hlength, rfl,
      item, hreadable, hitem, rfl⟩
    have hword := length.toNat_lt
    refine ⟨item, ⟨?_, hreadable⟩, ?_, rfl⟩
    · rw [hitem]
      exact show content.length < 4294967296 by omega
    · simp [ClassAttribute.encode, hitem, Attribute.encode, hlength]
  · rintro ⟨item, ⟨hformed, hreadable⟩, rfl, rfl⟩
    generalize hitem : item.toAttribute = stored at hformed
    refine ⟨stored.name, _, Bytes.ofWord32 (.ofNat stored.content.length) ++
      (stored.content ++ []), ?_, rfl, _, _, _, rfl, rfl, stored.content, [], rfl,
      (UInt32.toNat_ofNat_of_lt' hformed).symm, rfl, item, hreadable, hitem, rfl⟩
    simp [ClassAttribute.encode, hitem, Attribute.encode]

/-- The attributes of the class are read as a counted list. -/
theorem accepts_readAttributes (pool : ConstantPool) : (readAttributes pool).Accepts
    fun bytes result => ∃ items : List ClassAttribute, items.length < 65536 ∧
      (∀ item ∈ items, item.WellFormed pool) ∧
      bytes = Bytes.ofWord16 (.ofNat items.length) ++ items.flatMap ClassAttribute.encode ∧
      result.toList = items.flatMap (ClassAttribute.names pool) := by
  refine (Accepts.counted (accepts_readAttribute pool) #[]).congr fun bytes result => ?_
  simp only [foldl_append_names, ← Array.toList_inj]
  simp

/-- What stands before the attributes does not depend on them. -/
theorem HeadWellFormed.withAttributes {file : ClassFile} (h : file.HeadWellFormed)
    (attributes : List ClassAttribute) :
    HeadWellFormed { file with attributes := attributes } :=
  ⟨h.version, h.constants, h.slots, h.interfaces, h.fieldCount, h.fields, h.methodCount, h.methods,
    h.name⟩

/-- A class file means the name of its class and the annotation names of its attributes. -/
theorem meaning_eq {file : ClassFile} {name : String}
    (hname : file.pool.className file.thisClass = .ok name) :
    file.meaning = ⟨name, file.attributes.flatMap (ClassAttribute.names file.pool)⟩ := by
  simp [meaning, hname, Except.toOption]

/-- Reading succeeds exactly on the encoded form of a well-formed class file, and gives what
the file means. -/
theorem accepts_read : read.Accepts fun bytes summary =>
    ∃ file : ClassFile, file.WellFormed ∧ bytes = file.encode ∧ summary = file.meaning := by
  refine (accepts_readHead.bind fun head => (accepts_readAttributes head.1).bind
    fun annotations => accepts_pure (⟨head.2, annotations.toList⟩ : Summary)).congr
    fun bytes summary => ?_
  constructor
  · rintro ⟨⟨pool, name⟩, _, _, rfl, ⟨file, hhead, rfl, rfl, hname⟩, annotations, _, _, rfl,
      ⟨items, hcount, hitems, rfl, hannotations⟩, rfl, rfl⟩
    let whole : ClassFile := { file with attributes := items }
    refine ⟨whole, ⟨hhead.withAttributes items, hcount, hitems⟩, ?_, ?_⟩
    · simp [encode, whole]
      rfl
    · have hmeaning : whole.meaning = ⟨name, items.flatMap (ClassAttribute.names whole.pool)⟩ :=
        meaning_eq hname
      rw [hmeaning, hannotations]
      rfl
  · rintro ⟨file, hformed, rfl, rfl⟩
    obtain ⟨name, hname⟩ := hformed.name
    let annotations := (file.attributes.flatMap (ClassAttribute.names file.pool)).toArray
    let attributes := Bytes.ofWord16 (.ofNat file.attributes.length) ++
      file.attributes.flatMap ClassAttribute.encode
    refine ⟨(file.pool, name), file.encodeHead, attributes ++ [], ?_,
      ⟨file, hformed.toHeadWellFormed, rfl, rfl, hname⟩, annotations, attributes, [], rfl,
      ⟨file.attributes, hformed.attributeCount, hformed.attributes, rfl, rfl⟩, rfl, ?_⟩
    · simp [encode, attributes]
    · exact meaning_eq hname

/-- The file of a class `A` with the annotation `E` and a constant that takes two slots. -/
def annotatedClass : ClassFile where
  minor := 0
  major := 52
  slotCount := 7
  constants := [.plain .long [0, 0, 0, 0, 0, 0, 0, 1], .utf8 "A".toUTF8.toList, .classRef 3,
    .utf8 "LE;".toUTF8.toList, .utf8 visibleAnnotations]
  access := 33
  thisClass := 4
  superClass := 0
  interfaces := []
  fields := []
  methods := []
  attributes := [.table 6 [⟨5, []⟩]]

example : parse (annotatedClass.encode ++ [0]) = .ok ⟨"A", ["E"]⟩ := by decide +kernel

end JarCensus.ClassFile
