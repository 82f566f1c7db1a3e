import JarCensus.ClassFile.Annotations

/-!
# Summaries of class files

What the census needs of a class file: the name of the class and the type names of
the annotations that stand on the class itself and are visible at run time. Fields,
methods and their attributes are passed over by their lengths.
-/

namespace JarCensus.ClassFile

/-- The word that opens every class file. -/
def magic : UInt32 := 0xCAFEBABE

/-- The oldest supported major version. -/
def oldestVersion : UInt16 := 45

/-- The newest supported major version. -/
def newestVersion : UInt16 := 69

/-- The name of the attribute that lists the annotations visible at run time. -/
def visibleAnnotations : Bytes := Text.Utf8.encode "RuntimeVisibleAnnotations".toList

/-- The name of a class and its annotations. -/
structure Summary where
  /-- The class name, with dots between its parts. -/
  name : String
  /-- The annotation type names, in the order in which they are declared. -/
  annotations : List String
  deriving DecidableEq, Repr

/-- Reads the magic word and the version. -/
def readHeader : Reader Unit := do
  let word ← Reader.word32
  if word ≠ magic then throw (.wrongMagic word)
  let minor ← Reader.word16
  let major ← Reader.word16
  if major < oldestVersion ∨ newestVersion < major then
    throw (.unknownVersion major minor)

/-- Passes over one attribute. -/
def passAttribute : Reader Unit := do
  Reader.pass 2
  let length ← Reader.word32
  Reader.pass length.toNat

/-- Passes over one field or method with its attributes. -/
def passMember : Reader Unit := do
  Reader.pass 6
  let count ← Reader.word16
  Reader.times count.toNat passAttribute

/-- Passes over a counted list of fields or methods. -/
def passMembers : Reader Unit := do
  let count ← Reader.word16
  Reader.times count.toNat passMember

/-- Reads one attribute of the class and adds the annotation names that it lists. -/
def readAttribute (pool : ConstantPool) (names : Array String) : Reader (Array String) := do
  let nameIndex ← Reader.word16
  let length ← Reader.word32
  let body ← Reader.body length.toNat
  let name ← pool.utf8 nameIndex
  if name = visibleAnnotations then readTable pool body names else return names

/-- Reads the access flags and the slots of the class, its parent and its interfaces, for the
slot of the class. -/
def readReferences : Reader UInt16 := do
  Reader.pass 2
  let thisClass ← Reader.word16
  Reader.pass 2
  let interfaces ← Reader.word16
  Reader.pass (2 * interfaces.toNat)
  return thisClass

/-- Reads what stands before the attributes of the class, for the constant pool and the name
of the class. -/
def readHead : Reader (ConstantPool × String) := do
  readHeader
  let pool ← ConstantPool.read
  let thisClass ← readReferences
  passMembers
  passMembers
  let name ← pool.className thisClass
  return (pool, name)

/-- Reads the counted attributes of the class, for the annotation names that they list. -/
def readAttributes (pool : ConstantPool) : Reader (Array String) := do
  let count ← Reader.word16
  Reader.thread (readAttribute pool) count.toNat #[]

/-- Reads a class file from its first byte to its last attribute. -/
def read : Reader Summary := do
  let (pool, name) ← readHead
  let annotations ← readAttributes pool
  return ⟨name, annotations.toList⟩

/-- The summary of a class file. Bytes after its last attribute are ignored. -/
def parse (bytes : Bytes) : Except Fault Summary :=
  (read.run (Cursor.start bytes)).map (·.1)

end JarCensus.ClassFile
