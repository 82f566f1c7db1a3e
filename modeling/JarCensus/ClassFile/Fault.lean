/-!
# Faults of class files

Each way in which bytes fail to be a class file, with its message.
-/

namespace JarCensus.ClassFile

/-- The kind of entry that an index into the constant pool has to name. -/
inductive Expected where
  /-- A text entry. -/
  | utf8
  /-- A class entry. -/
  | classRef
  /-- Room for a constant of two slots. -/
  | twoSlots
  deriving DecidableEq, Repr

/-- The words for an expected entry. -/
def Expected.label : Expected → String
  | .utf8 => "Utf8"
  | .classRef => "Class"
  | .twoSlots => "two-slot Long or Double"

/-- Why bytes are not a class file. -/
inductive Fault where
  /-- The bytes end at an offset where more were needed. -/
  | truncated (offset needed : Nat)
  /-- The first word is not the class-file magic. -/
  | wrongMagic (word : UInt32)
  /-- The version is outside the supported range. -/
  | unknownVersion (major minor : UInt16)
  /-- The constant at a slot has an unknown tag. -/
  | unknownConstant (slot : Nat) (tag : UInt8)
  /-- A slot does not hold the expected entry. -/
  | wrongSlot (slot : Nat) (expected : Expected)
  /-- An element value has an unknown tag. -/
  | unknownElement (tag : UInt8)
  /-- Element values are nested below the given level. -/
  | tooDeep (limit : Nat)
  /-- An annotation table ends before its attribute does. -/
  | shortTable (declared actual : Nat)
  deriving DecidableEq, Repr

/-- A number in hexadecimal with at least the given count of digits. -/
def hexadecimal (digits value : Nat) : String :=
  let shown := Nat.toDigits 16 value
  "0x" ++ String.ofList (List.replicate (digits - shown.length) '0' ++ shown)

/-- The message of a fault. -/
def Fault.message : Fault → String
  | .truncated offset needed =>
    s!"truncated at offset {hexadecimal 1 offset}, needed {needed} more bytes"
  | .wrongMagic word => s!"bad magic {hexadecimal 8 word.toNat}"
  | .unknownVersion major minor => s!"unsupported class file version {major}.{minor}"
  | .unknownConstant slot tag => s!"unknown constant pool tag {tag} at index {slot}"
  | .wrongSlot slot expected =>
    s!"constant pool index {slot} does not refer to a {expected.label} entry"
  | .unknownElement tag => s!"unknown element value tag {hexadecimal 2 tag.toNat}"
  | .tooDeep limit => s!"annotation values nested deeper than {limit} levels"
  | .shortTable declared actual =>
    s!"annotation table spans {actual} bytes, attribute declares {declared}"

end JarCensus.ClassFile
