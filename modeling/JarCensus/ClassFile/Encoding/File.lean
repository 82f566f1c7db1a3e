import JarCensus.ClassFile.Encoding.Constant
import JarCensus.ClassFile.Encoding.Table
import JarCensus.ClassFile.Summary

/-!
# Encoded class files

What a class file consists of, which bytes stand for it, when it is well formed, and
what it means. Members and most attributes are any words and bytes.
-/

namespace JarCensus.ClassFile

/-- An attribute whose name and content nothing interprets. -/
structure Attribute where
  /-- The slot of its name. -/
  name : UInt16
  /-- Its content. -/
  content : Bytes
  deriving DecidableEq, Repr

namespace Attribute

/-- The bytes of an attribute. -/
def encode (item : Attribute) : Bytes :=
  Bytes.ofWord16 item.name ++ Bytes.ofWord32 (.ofNat item.content.length) ++
    item.content

/-- Whether the length of the content fits its word. -/
def WellFormed (item : Attribute) : Prop := item.content.length < 4294967296

end Attribute

/-- A field or a method. -/
structure Member where
  /-- Its access flags. -/
  access : UInt16
  /-- The slot of its name. -/
  name : UInt16
  /-- The slot of its descriptor. -/
  descriptor : UInt16
  /-- Its attributes. -/
  attributes : List Attribute
  deriving DecidableEq, Repr

namespace Member

/-- The bytes of a member. -/
def encode (member : Member) : Bytes :=
  Bytes.ofWord16 member.access ++ Bytes.ofWord16 member.name ++
    Bytes.ofWord16 member.descriptor ++ Bytes.ofWord16 (.ofNat member.attributes.length) ++
    member.attributes.flatMap Attribute.encode

/-- Whether the counts and lengths fit their words. -/
def WellFormed (member : Member) : Prop :=
  member.attributes.length < 65536 ∧ ∀ item ∈ member.attributes, item.WellFormed

end Member

/-- The bytes of a counted list of members. -/
def encodeMembers (members : List Member) : Bytes :=
  Bytes.ofWord16 (.ofNat members.length) ++ members.flatMap Member.encode

/-- An attribute of the class itself. -/
inductive ClassAttribute where
  /-- A table of the annotations visible at run time. -/
  | table (name : UInt16) (entries : List TableEntry)
  /-- An attribute that nothing interprets. -/
  | plain (item : Attribute)
  deriving Repr

namespace ClassAttribute

/-- The attribute as a name and its content. -/
def toAttribute : ClassAttribute → Attribute
  | table name entries => ⟨name, encodeTable entries⟩
  | plain item => item

/-- The bytes of an attribute of the class. -/
def encode (item : ClassAttribute) : Bytes := item.toAttribute.encode

/-- Whether an attribute goes by the name that decides how its content is read, and its
content can be read. -/
def Readable (pool : ConstantPool) : ClassAttribute → Prop
  | table name entries =>
    pool.utf8 name = .ok visibleAnnotations ∧ TableWellFormed pool entries ∧
      ∀ entry ∈ entries, entry.FitsDepth deepestLevel
  | plain item => ∃ text, pool.utf8 item.name = .ok text ∧ text ≠ visibleAnnotations

/-- Whether an attribute can be read and the length of its content fits its word. -/
def WellFormed (pool : ConstantPool) (item : ClassAttribute) : Prop :=
  item.toAttribute.WellFormed ∧ item.Readable pool

/-- The annotation names that an attribute lists. -/
def names (pool : ConstantPool) : ClassAttribute → List String
  | table _ entries => tableNames pool entries
  | plain _ => []

end ClassAttribute

end ClassFile

/-- What a class file consists of. -/
structure ClassFile where
  /-- The minor version. -/
  minor : UInt16
  /-- The major version. -/
  major : UInt16
  /-- The declared count of slots. -/
  slotCount : UInt16
  /-- The constants. -/
  constants : List ClassFile.Constant
  /-- The access flags. -/
  access : UInt16
  /-- The slot of the class. -/
  thisClass : UInt16
  /-- The slot of its parent. -/
  superClass : UInt16
  /-- The slots of its interfaces. -/
  interfaces : List UInt16
  /-- Its fields. -/
  fields : List ClassFile.Member
  /-- Its methods. -/
  methods : List ClassFile.Member
  /-- Its attributes. -/
  attributes : List ClassFile.ClassAttribute
  deriving Repr

namespace ClassFile

/-- The constant pool of a class file. -/
def pool (file : ClassFile) : ConstantPool := .ofConstants file.constants

/-- The bytes up to the attributes of the class. -/
def encodeHead (file : ClassFile) : Bytes :=
  Bytes.ofWord32 magic ++ Bytes.ofWord16 file.minor ++ Bytes.ofWord16 file.major ++
    Bytes.ofWord16 file.slotCount ++ file.constants.flatMap Constant.encode ++
    Bytes.ofWord16 file.access ++ Bytes.ofWord16 file.thisClass ++
    Bytes.ofWord16 file.superClass ++ Bytes.ofWord16 (.ofNat file.interfaces.length) ++
    file.interfaces.flatMap Bytes.ofWord16 ++ encodeMembers file.fields ++
    encodeMembers file.methods

/-- The bytes of a class file. -/
def encode (file : ClassFile) : Bytes :=
  file.encodeHead ++ Bytes.ofWord16 (.ofNat file.attributes.length) ++
    file.attributes.flatMap ClassAttribute.encode

/-- Whether what stands before the attributes of the class is well formed. The constants
fill the declared slots exactly, of which slot zero is always there. -/
structure HeadWellFormed (file : ClassFile) : Prop where
  /-- The version is supported. -/
  version : oldestVersion ≤ file.major ∧ file.major ≤ newestVersion
  /-- The constants have the lengths of their kinds. -/
  constants : ∀ constant ∈ file.constants, constant.WellFormed
  /-- The constants fill the slots. -/
  slots : (slotsOf file.constants).length = file.slotCount.toNat - 1
  /-- The count of interfaces fits its word. -/
  interfaces : file.interfaces.length < 65536
  /-- The count of fields fits its word. -/
  fieldCount : file.fields.length < 65536
  /-- The fields are well formed. -/
  fields : ∀ member ∈ file.fields, member.WellFormed
  /-- The count of methods fits its word. -/
  methodCount : file.methods.length < 65536
  /-- The methods are well formed. -/
  methods : ∀ member ∈ file.methods, member.WellFormed
  /-- The class has a name. -/
  name : ∃ name, file.pool.className file.thisClass = .ok name

/-- Whether a class file is well formed. -/
structure WellFormed (file : ClassFile) : Prop extends HeadWellFormed file where
  /-- The count of attributes fits its word. -/
  attributeCount : file.attributes.length < 65536
  /-- The attributes are well formed. -/
  attributes : ∀ item ∈ file.attributes, item.WellFormed file.pool

/-- What a class file says of its class. -/
def meaning (file : ClassFile) : Summary where
  name := (file.pool.className file.thisClass).toOption.getD ""
  annotations := file.attributes.flatMap (ClassAttribute.names file.pool)

end ClassFile

end JarCensus
