import JarCensus.Proofs.ClassFile.TableFaults

/-!
# Annotation tables are confined to their attribute

An attribute with visible annotations in a class file that is well formed up to it is read
from its own content alone, and what is wrong with the content decides the fault of the file,
whatever follows the attribute.
-/

namespace JarCensus.ClassFile

open Reader

/-- An attribute with visible annotations in a class file that is well formed up to it. -/
structure AnnotationSite where
  /-- The file up to the attribute, with the attributes before it. -/
  file : ClassFile
  /-- The declared count of attributes. -/
  count : UInt16
  /-- The attribute. -/
  item : Attribute
  /-- The bytes after the attribute. -/
  tail : Bytes
  /-- The file is well formed up to the attribute. -/
  wellFormed : file.WellFormed
  /-- The attribute is one of those that the file counts. -/
  room : file.attributes.length < count.toNat
  /-- The name of the attribute is that of visible annotations. -/
  visible : file.pool.utf8 item.name = .ok visibleAnnotations
  /-- The length of the content fits its word. -/
  fits : item.WellFormed

namespace AnnotationSite

/-- The bytes of the attributes before the attribute. -/
def before (site : AnnotationSite) : Bytes :=
  site.file.attributes.flatMap ClassAttribute.encode

/-- The annotation names of the attributes before the attribute. -/
def names (site : AnnotationSite) : Array String :=
  (#[] : Array String) ++ site.file.attributes.flatMap (ClassAttribute.names site.file.pool)

/-- The bytes before the content of the attribute. -/
def front (site : AnnotationSite) : Bytes :=
  site.file.encodeHead ++ Bytes.ofWord16 site.count ++ site.before ++
    Bytes.ofWord16 site.item.name ++ Bytes.ofWord32 (.ofNat site.item.content.length)

/-- The bytes of the file. -/
def bytes (site : AnnotationSite) : Bytes :=
  site.front ++ site.item.content ++ site.tail

/-- The file from its head to what follows the attribute. -/
theorem bytes_eq (site : AnnotationSite) :
    site.bytes = site.file.encodeHead ++
      (Bytes.ofWord16 site.count ++ (site.before ++ (site.item.encode ++ site.tail))) := by
  simp [bytes, front, Attribute.encode]

/-- The content starts six bytes after the name of the attribute does. -/
theorem length_front (site : AnnotationSite) :
    site.front.length = site.file.encodeHead.length + 2 + site.before.length + 6 := by
  simp only [front, List.length_append, Bytes.ofWord16, Bytes.ofWord32, List.length_cons,
    List.length_nil]

end AnnotationSite

/-- An attribute with visible annotations has the fault of the table in its content. -/
theorem readAttribute_of_readTable_error {pool : ConstantPool} {names : Array String}
    {item : Attribute} {offset : Nat} {fault : Fault} (hfits : item.WellFormed)
    (hvisible : pool.utf8 item.name = .ok visibleAnnotations)
    (hfault : readTable pool ⟨offset + 6, item.content⟩ names = .error fault) (tail : Bytes) :
    readAttribute pool names ⟨offset, item.encode ++ tail⟩ = .error fault := by
  have hname : word16 ⟨offset, item.encode ++ tail⟩ = .ok (item.name,
      ⟨offset + 2, Bytes.ofWord32 (.ofNat item.content.length) ++ (item.content ++ tail)⟩) :=
    (accepts_word16 ..).mpr ⟨_, rfl, by simp [Attribute.encode], rfl⟩
  have hlength : word32 ⟨offset + 2, Bytes.ofWord32 (.ofNat item.content.length) ++
      (item.content ++ tail)⟩ = .ok (.ofNat item.content.length,
        ⟨offset + 6, item.content ++ tail⟩) :=
    (accepts_word32 ..).mpr ⟨_, rfl, rfl, rfl⟩
  have hcontent : Reader.body (UInt32.ofNat item.content.length).toNat
      ⟨offset + 6, item.content ++ tail⟩ = .ok (⟨offset + 6, item.content⟩,
        ⟨offset + 6 + item.content.length, tail⟩) := by
    rw [UInt32.toNat_ofNat_of_lt' hfits, Reader.body, take_of_length_eq rfl]
  rw [readAttribute, bind_of_ok hname, bind_of_ok hlength, bind_of_ok hcontent, hvisible]
  have hlift : (liftM (Except.ok visibleAnnotations : Except Fault Bytes) : Reader Bytes)
      ⟨offset + 6 + item.content.length, tail⟩ =
        .ok (visibleAnnotations, ⟨offset + 6 + item.content.length, tail⟩) := rfl
  rw [bind_of_ok hlift, if_pos rfl, hfault]
  rfl

namespace AnnotationSite

/-- A file has the fault of the table in the content of the attribute. -/
theorem parse_of_readTable_error (site : AnnotationSite) {fault : Fault}
    (hfault : readTable site.file.pool ⟨site.front.length, site.item.content⟩ site.names =
      .error fault) : parse site.bytes = .error fault := by
  obtain ⟨name, hname⟩ := site.wellFormed.name
  let start := site.file.encodeHead.length
  let rest := site.item.encode ++ site.tail
  have hhead : readHead ⟨0, site.file.encodeHead ++ (Bytes.ofWord16 site.count ++
      (site.before ++ rest))⟩ = .ok ((site.file.pool, name),
        ⟨start, Bytes.ofWord16 site.count ++ (site.before ++ rest)⟩) :=
    (accepts_readHead ..).mpr ⟨_, ⟨site.file, site.wellFormed.toHeadWellFormed, rfl, rfl, hname⟩,
      rfl, by simp [start]⟩
  have hcount : word16 ⟨start, Bytes.ofWord16 site.count ++ (site.before ++ rest)⟩ =
      .ok (site.count, ⟨start + 2, site.before ++ rest⟩) :=
    (accepts_word16 ..).mpr ⟨_, rfl, rfl, rfl⟩
  have hbefore : Reader.thread (readAttribute site.file.pool) site.file.attributes.length #[]
      ⟨start + 2, site.before ++ rest⟩ =
        .ok (site.names, ⟨start + 2 + site.before.length, rest⟩) :=
    (Accepts.thread (accepts_readAttribute site.file.pool) ..).mpr ⟨site.before,
      ⟨site.file.attributes, rfl, site.wellFormed.attributes, rfl,
        (foldl_append_names _ _ _).symm⟩, rfl, rfl⟩
  have hitem : readAttribute site.file.pool site.names
      ⟨start + 2 + site.before.length, rest⟩ = .error fault := by
    rw [length_front] at hfault
    exact readAttribute_of_readTable_error site.fits site.visible hfault site.tail
  -- The run over the attributes splits into those before this one, this one, and the others.
  obtain ⟨more, hmore⟩ := Nat.exists_eq_add_of_lt site.room
  have hread : read (Cursor.start site.bytes) = .error fault := by
    rw [bytes_eq, Cursor.start, read, bind_of_ok hhead]
    refine bind_of_error ?_
    rw [readAttributes, bind_of_ok hcount, hmore, Nat.add_assoc, thread_add, bind_of_ok hbefore,
      Reader.thread]
    exact bind_of_error hitem
  rw [parse, StateT.run, hread]
  rfl

/-- A file with a table that can be read goes on with the attributes behind it. -/
theorem parse_of_table (site : AnnotationSite) {entries : List TableEntry}
    {further : List ClassAttribute} {rest : Bytes}
    (hcontent : site.item.content = encodeTable entries)
    (hformed : TableWellFormed site.file.pool entries)
    (hfits : ∀ entry ∈ entries, entry.FitsDepth deepestLevel)
    (hfurther : ∀ item ∈ further, item.WellFormed site.file.pool)
    (hcount : site.count.toNat = site.file.attributes.length + 1 + further.length)
    (htail : site.tail = further.flatMap ClassAttribute.encode ++ rest) :
    parse site.bytes = .ok ⟨site.file.meaning.name, site.file.meaning.annotations ++
      tableNames site.file.pool entries ++
        further.flatMap (ClassAttribute.names site.file.pool)⟩ := by
  let table : ClassAttribute := .table site.item.name entries
  have hitem : table.toAttribute = site.item := by
    rw [ClassAttribute.toAttribute, ← hcontent]
  let whole : ClassFile :=
    { site.file with attributes := site.file.attributes ++ table :: further }
  have hwhole : whole.WellFormed := by
    refine ⟨site.wellFormed.toHeadWellFormed.withAttributes _, ?_, ?_⟩
    · have hword := site.count.toNat_lt
      simp only [whole, List.length_append, List.length_cons]
      omega
    · intro item hmem
      rcases List.mem_append.mp hmem with hbefore | hrest
      · exact site.wellFormed.attributes item hbefore
      rcases List.mem_cons.mp hrest with rfl | hlater
      · refine ⟨?_, site.visible, hformed, hfits⟩
        rw [hitem]
        exact site.fits
      · exact hfurther item hlater
  have hbytes : site.bytes = whole.encode ++ rest := by
    have hlength : UInt16.ofNat whole.attributes.length = site.count := by
      rw [← UInt16.ofNat_toNat (x := site.count), hcount]
      simp only [whole, List.length_append, List.length_cons]
      congr 1
      omega
    have hhead : whole.encodeHead = site.file.encodeHead := rfl
    rw [bytes_eq, htail, encode, hlength, hhead, ← hitem]
    simp [whole, before, ClassAttribute.encode]
  have hread : read (Cursor.start site.bytes) = .ok (whole.meaning, ⟨whole.encode.length, rest⟩) :=
    (accepts_read ..).mpr ⟨_, ⟨whole, hwhole, rfl, rfl⟩, hbytes, by simp [Cursor.start]⟩
  have hmeaning : whole.meaning = ⟨site.file.meaning.name, site.file.meaning.annotations ++
      tableNames site.file.pool entries ++
        further.flatMap (ClassAttribute.names site.file.pool)⟩ := by
    have hpool : whole.pool = site.file.pool := rfl
    simp [meaning, whole, table, ClassAttribute.names, hpool]
  rw [parse, StateT.run, hread, hmeaning]
  rfl

/-- How the content of an attribute with visible annotations decides the fault of a file that is
well formed up to it. -/
structure Confined (site : AnnotationSite) : Prop where
  /-- A table that leaves bytes of the content over is reported with both lengths. -/
  overlong : ∀ entries extra, TableWellFormed site.file.pool entries →
    (∀ entry ∈ entries, entry.FitsDepth deepestLevel) →
    site.item.content = encodeTable entries ++ extra → extra ≠ [] →
    parse site.bytes = .error (.shortTable ((encodeTable entries).length + extra.length)
      (encodeTable entries).length)
  /-- A table that the content cuts short is reported at an offset in the content, its end
  included, and no more bytes are asked for than the table has, whatever follows the content. -/
  cut : ∀ entries more, TableWellFormed site.file.pool entries →
    (∀ entry ∈ entries, entry.FitsDepth deepestLevel) →
    encodeTable entries = site.item.content ++ more → more ≠ [] →
    ∃ offset needed, parse site.bytes = .error (.truncated offset needed) ∧
      site.front.length ≤ offset ∧ offset ≤ site.front.length + site.item.content.length ∧
        1 ≤ needed ∧ site.item.content.length + needed ≤ (encodeTable entries).length
  /-- A table with a value below the deepest level is reported as too deep. -/
  tooDeep : ∀ entries, TableWellFormed site.file.pool entries →
    (∃ entry ∈ entries, ¬entry.FitsDepth deepestLevel) →
    site.item.content = encodeTable entries → parse site.bytes = .error (.tooDeep deepestLevel)
  /-- A table whose values stand at the deepest level or above is accepted: when well-formed
  attributes make up the count, the file is read with its names. -/
  accepted : ∀ entries (further : List ClassAttribute) rest,
    TableWellFormed site.file.pool entries → (∀ entry ∈ entries, entry.FitsDepth deepestLevel) →
    site.item.content = encodeTable entries →
    (∀ item ∈ further, item.WellFormed site.file.pool) →
    site.count.toNat = site.file.attributes.length + 1 + further.length →
    site.tail = further.flatMap ClassAttribute.encode ++ rest →
    parse site.bytes = .ok ⟨site.file.meaning.name, site.file.meaning.annotations ++
      tableNames site.file.pool entries ++
        further.flatMap (ClassAttribute.names site.file.pool)⟩
  /-- An unknown tag that is the first fault of the content is reported. -/
  unknownTag : ∀ tag front back, TableFailsAt site.file.pool front (.unknownElement tag) →
    site.item.content = front ++ back → parse site.bytes = .error (.unknownElement tag)
  /-- A type that is no text and is the first fault of the content is reported. -/
  wrongType : ∀ type front back, TableFailsAt site.file.pool front (.wrongSlot type .utf8) →
    site.item.content = front ++ back → parse site.bytes = .error (.wrongSlot type .utf8)

/-- The content of an attribute with visible annotations decides the fault of the file. -/
theorem confined (site : AnnotationSite) : site.Confined where
  overlong := by
    intro entries extra hformed hfits hcontent hextra
    exact site.parse_of_readTable_error (readTable_overlong hformed hfits hcontent hextra)
  cut := by
    intro entries more hformed hfits htable hmore
    obtain ⟨offset, needed, hfault, hbounds⟩ :=
      readTable_cut hformed hfits htable hmore site.front.length site.names
    exact ⟨offset, needed, site.parse_of_readTable_error hfault, hbounds⟩
  tooDeep := by
    rintro entries hformed ⟨entry, hentry, hdeep⟩ hcontent
    have hsome : ¬∀ entry ∈ entries, entry.FitsDepth deepestLevel := fun h => hdeep (h entry hentry)
    obtain ⟨front, back, hfront, hfails⟩ := exists_tableFailsAt_tooDeep hformed hsome
    refine site.parse_of_readTable_error ?_
    exact readTable_of_failsAt (by simp [Fault.InBytes]) (hcontent.trans hfront) hfails
  accepted := by
    intro entries further rest hformed hfits hcontent hfurther hcount htail
    exact site.parse_of_table hcontent hformed hfits hfurther hcount htail
  unknownTag := by
    intro tag front back hfails hcontent
    refine site.parse_of_readTable_error ?_
    exact readTable_of_failsAt (by simp [Fault.InBytes]) hcontent hfails
  wrongType := by
    intro type front back hfails hcontent
    refine site.parse_of_readTable_error ?_
    exact readTable_of_failsAt (by simp [Fault.InBytes]) hcontent hfails

end AnnotationSite

/-- The class `A` is well formed up to its attributes. -/
theorem headWellFormed_annotatedClass : annotatedClass.HeadWellFormed where
  version := by decide
  constants := by
    simp only [annotatedClass, List.forall_mem_cons, Constant.WellFormed]
    refine ⟨by decide, by decide +kernel, trivial, by decide +kernel, by decide +kernel, ?_⟩
    simp
  slots := by decide
  interfaces := by decide
  fieldCount := by decide
  fields := by simp [annotatedClass]
  methodCount := by decide
  methods := by simp [annotatedClass]
  name := ⟨"A", by decide +kernel⟩

/-- The class `A` whose one attribute is a table of the annotation `E` with one value: a number in
a list, which is in a list in turn, and so on. -/
def AnnotationSite.nestedLists (depth : Fin 64) (tail : Bytes) : AnnotationSite where
  file := { annotatedClass with attributes := [] }
  count := 1
  item := ⟨6, [0, 1, 0, 5, 0, 1, 0, 0] ++ (List.replicate depth [91, 0, 1]).flatten ++ [73, 0, 5]⟩
  tail := tail
  wellFormed := ⟨headWellFormed_annotatedClass.withAttributes [], by decide, by simp⟩
  room := by decide
  visible := rfl
  fits := by
    have hdepth := depth.isLt
    simp [Attribute.WellFormed]
    omega

example : parse (AnnotationSite.nestedLists 32 [1]).bytes = .ok ⟨"A", ["E"]⟩ := by
  decide +kernel

example : parse (AnnotationSite.nestedLists 33 [1]).bytes = .error (.tooDeep 32) := by
  decide +kernel

end JarCensus.ClassFile
