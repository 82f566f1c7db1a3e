import JarCensus.ClassFile.Checked.Basic
import JarCensus.ClassFile.Summary

/-!
# Checked reading of class files

The readers of class files once more, as checked steps. They read what the readers over
cursors read, in the same order, and every index, position, depth and slot on the way is a
machine number.
-/

namespace JarCensus.ClassFile.Checked

/-- The byte that is ahead of an index by the given number of bytes, when it may continue a
unit. -/
def continuation (text : Bytes) (index ahead : Nat) : Checked (Option UInt8) := do
  let place ← fit Bytes.end64 (index + ahead)
  return text[place.val]?.filter Text.ModifiedUtf8.continues

/-- The code unit that starts at an index, and how many bytes it has after its first one. -/
def unitAt (text : Bytes) (index : Nat) : Checked (UInt16 × Nat) := do
  let lead ← byteAt text index
  if lead < 0x80 then return (lead.toUInt16, 0)
  else if lead &&& 0xE0 == 0xC0 then
    match ← continuation text index 1 with
    | some second => return (Text.ModifiedUtf8.unit₂ lead second, 1)
    | none => return (Text.ModifiedUtf8.replacementUnit, 0)
  else if lead &&& 0xF0 == 0xE0 then
    match ← continuation text index 1, ← continuation text index 2 with
    | some second, some third => return (Text.ModifiedUtf8.unit₃ lead second third, 2)
    | _, _ => return (Text.ModifiedUtf8.replacementUnit, 0)
  else return (Text.ModifiedUtf8.replacementUnit, 0)

/-- The code units from an index on. -/
def unitsFrom (text : Bytes) (index : Nat) : Checked (List UInt16) :=
  if index < text.length then do
    let (unit, more) ← unitAt text index
    let next ← fit Bytes.end64 (index + (more + 1))
    return unit :: (← unitsFrom text next)
  else return []
termination_by text.length - index
decreasing_by
  have := next.property
  omega

/-- The text of the bytes. -/
def decode (text : Bytes) : Checked (List Char) :=
  match Text.Utf8.decode? text with
  | some chars => return chars
  | none => return Text.Utf16.decode (← unitsFrom text 0)

/-- Reads what follows the tag of a constant that fills one slot. -/
def readBody (kind : ConstantKind) : Checked Slot :=
  match kind with
  | .utf8 => do
    let length ← word16
    return .utf8 (← take length.toNat)
  | .classRef => return .classRef (← word16)
  | kind => do
    pass kind.width
    return .other

/-- Reads constants from a slot on until the declared count of slots is filled. -/
def fill (count index : Nat) (pool : ConstantPool) : Checked ConstantPool :=
  if index < count then do
    let tag ← byte
    match ConstantKind.ofTag? tag with
    | none => fail (.unknownConstant (← narrow index) tag)
    | some kind =>
      if kind.isWide then
        let second ← fit end32 (index + 1)
        if count ≤ second then fail (.wrongSlot (← narrow index) .twoSlots)
        else
          pass kind.width
          let next ← fit end32 (second + 1)
          fill count next ((pool.push .other).push .unusable)
      else
        let slot ← readBody kind
        let next ← fit end32 (index + 1)
        fill count next (pool.push slot)
  else return pool
termination_by count - index
decreasing_by
  · have := second.property
    have := next.property
    omega
  · have := next.property
    omega

/-- Reads the count of slots and the constants that fill them. -/
def readPool : Checked ConstantPool := do
  let count ← word16
  fill count.toNat 1 .opening

/-- The name of the class in a slot, with a dot between its parts. -/
def className (pool : ConstantPool) (index : UInt16) : Checked String :=
  match pool.slots[index.toNat]? with
  | some (.classRef name) => do
    let text ← found (pool.utf8 name)
    return String.ofList (dotted (← decode text))
  | _ => fail (.wrongSlot index.toNat .classRef)

/-- Passes over the counted pairs of an element name and an element value. -/
def passPairs (value : Checked Unit) : Checked Unit := do
  let count ← word16
  times count.toNat do
    pass 2
    value

/-- Passes over one element value at a depth. -/
def passValue (depth : Nat) : Checked Unit := do
  record (.value depth)
  if deepestLevel < depth then fail (.tooDeep deepestLevel)
  else
    let tag ← byte
    match ElementForm.ofTag? tag with
    | none => fail (.unknownElement tag)
    | some (.words count) => pass (2 * count)
    | some .nested =>
      pass 2
      let deeper ← fit Bytes.end64 (depth + 1)
      passPairs (passValue deeper)
    | some .array =>
      let count ← word16
      times count.toNat do
        let deeper ← fit Bytes.end64 (depth + 1)
        passValue deeper
termination_by deepestLevel + 1 - depth
decreasing_by
  all_goals
    have := deeper.property
    omega

/-- Reads one annotation and adds its type name. -/
def readAnnotated (pool : ConstantPool) (names : Array String) : Checked (Array String) := do
  let type ← word16
  let descriptor ← found (pool.utf8 type)
  let chars ← decode descriptor
  passPairs (passValue 0)
  return names.push (String.ofList (dotted (bare chars)))

/-- Reads the counted annotations of a table and adds their type names. -/
def readAnnotations (pool : ConstantPool) (names : Array String) : Checked (Array String) := do
  let count ← word16
  thread (readAnnotated pool) count.toNat names

/-- Reads the annotation table that fills the window exactly and adds its type names. -/
def readTable (pool : ConstantPool) (names : Array String) : Checked (Array String) := do
  let start ← get
  let declared ← difference start.stop start.position
  let names ← readAnnotations pool names
  let actual ← difference (← get).position start.position
  if actual = declared then return names
  else fail (.shortTable declared actual)

/-- Reads the magic word and the version. -/
def readHeader : Checked Unit := do
  let word ← word32
  if word ≠ magic then fail (.wrongMagic word)
  let minor ← word16
  let major ← word16
  if major < oldestVersion ∨ newestVersion < major then
    fail (.unknownVersion major minor)

/-- Passes over one attribute. -/
def passAttribute : Checked Unit := do
  pass 2
  let length ← word32
  pass length.toNat

/-- Passes over one field or method with its attributes. -/
def passMember : Checked Unit := do
  pass 6
  let count ← word16
  times count.toNat passAttribute

/-- Passes over a counted list of fields or methods. -/
def passMembers : Checked Unit := do
  let count ← word16
  times count.toNat passMember

/-- Reads one attribute of the class and adds the annotation names that it lists. -/
def readAttribute (pool : ConstantPool) (names : Array String) : Checked (Array String) := do
  let nameIndex ← word16
  let length ← word32
  let content ← body length.toNat
  let name ← found (pool.utf8 nameIndex)
  if name = visibleAnnotations then inside content (readTable pool names) else return names

/-- Reads the access flags and the slots of the class, its parent and its interfaces, for the
slot of the class. -/
def readReferences : Checked UInt16 := do
  pass 2
  let thisClass ← word16
  pass 2
  let interfaces ← word16
  let bytes ← fit Bytes.end64 (interfaces.toNat * 2)
  pass bytes
  return thisClass

/-- Reads what stands before the attributes of the class, for the constant pool and the name
of the class. -/
def readHead : Checked (ConstantPool × String) := do
  readHeader
  let pool ← readPool
  let thisClass ← readReferences
  passMembers
  passMembers
  let name ← className pool thisClass
  return (pool, name)

/-- Reads the counted attributes of the class, for the annotation names that they list. -/
def readAttributes (pool : ConstantPool) : Checked (Array String) := do
  let count ← word16
  thread (readAttribute pool) count.toNat #[]

/-- Reads a class file from its first byte to its last attribute. -/
def read : Checked Summary := do
  let (pool, name) ← readHead
  let annotations ← readAttributes pool
  return ⟨name, annotations.toList⟩

/-- The checked run on the bytes of a class file: its outcome, with the last window of the
file, and its record. -/
def run (bytes : Bytes) : Except Halt (Summary × Window) × List Event :=
  let file := Window.whole bytes
  Checked.read [] file [.windows [file]]

end JarCensus.ClassFile.Checked
