import JarCensus.ClassFile.Cursor
import JarCensus.ClassFile.Name

/-!
# Constant pools

A pool has a declared count of slots. Slot zero holds no constant, every constant
fills one slot, and a long or a double fills two, the second of which holds no
constant either. Only text and class entries are kept: the others are passed over
by their width.
-/

namespace JarCensus.ClassFile

/-- The kinds of constants. -/
inductive ConstantKind where
  | utf8 | integer | float | long | double | classRef | string | fieldRef | methodRef
  | interfaceMethodRef | nameAndType | methodHandle | methodType | dynamic
  | invokeDynamic | moduleRef | packageRef
  deriving DecidableEq, Repr

namespace ConstantKind

/-- The byte that announces a constant of the kind. -/
def tag : ConstantKind → UInt8
  | utf8 => 1
  | integer => 3
  | float => 4
  | long => 5
  | double => 6
  | classRef => 7
  | string => 8
  | fieldRef => 9
  | methodRef => 10
  | interfaceMethodRef => 11
  | nameAndType => 12
  | methodHandle => 15
  | methodType => 16
  | dynamic => 17
  | invokeDynamic => 18
  | moduleRef => 19
  | packageRef => 20

/-- The kind that a byte announces. -/
def ofTag? (tag : UInt8) : Option ConstantKind :=
  match tag.toNat with
  | 1 => some utf8
  | 3 => some integer
  | 4 => some float
  | 5 => some long
  | 6 => some double
  | 7 => some classRef
  | 8 => some string
  | 9 => some fieldRef
  | 10 => some methodRef
  | 11 => some interfaceMethodRef
  | 12 => some nameAndType
  | 15 => some methodHandle
  | 16 => some methodType
  | 17 => some dynamic
  | 18 => some invokeDynamic
  | 19 => some moduleRef
  | 20 => some packageRef
  | _ => none

/-- A kind is announced by its tag. -/
theorem ofTag?_tag (kind : ConstantKind) : ofTag? kind.tag = some kind := by
  cases kind <;> rfl

/-- Whether constants of the kind fill two slots. -/
def isWide : ConstantKind → Bool
  | long | double => true
  | _ => false

/-- The number of bytes after the tag, for text the width of its length word. -/
def width : ConstantKind → Nat
  | integer | float | fieldRef | methodRef | interfaceMethodRef | nameAndType
  | dynamic | invokeDynamic => 4
  | long | double => 8
  | methodHandle => 3
  | utf8 | classRef | string | methodType | moduleRef | packageRef => 2

end ConstantKind

/-- What a slot of the pool holds, as far as names need it. -/
inductive Slot where
  /-- No constant starts here. -/
  | unusable
  /-- A text. -/
  | utf8 (text : Bytes)
  /-- A class named by the text in another slot. -/
  | classRef (name : UInt16)
  /-- A constant of another kind. -/
  | other
  deriving DecidableEq, Repr

/-- The slots of a constant pool, slot zero included. -/
structure ConstantPool where
  /-- The slots in order. -/
  slots : Array Slot
  deriving Repr

namespace ConstantPool

/-- The pool before its first constant is read. -/
def opening : ConstantPool := ⟨#[.unusable]⟩

/-- The pool with one more slot filled. -/
def push (pool : ConstantPool) (slot : Slot) : ConstantPool := ⟨pool.slots.push slot⟩

/-- Reads what follows the tag of a constant that fills one slot. -/
def readBody (kind : ConstantKind) : Reader Slot :=
  match kind with
  | .utf8 => do
    let length ← Reader.word16
    return .utf8 (← Reader.take length.toNat)
  | .classRef => return .classRef (← Reader.word16)
  | kind => do
    Reader.pass kind.width
    return .other

/-- Reads constants until the given number of further slots is filled. -/
def fill : Nat → ConstantPool → Reader ConstantPool
  | 0, pool => pure pool
  | room + 1, pool => do
    let tag ← Reader.byte
    match ConstantKind.ofTag? tag with
    | none => throw (.unknownConstant pool.slots.size tag)
    | some kind =>
      if kind.isWide then
        match room with
        | 0 => throw (.wrongSlot pool.slots.size .twoSlots)
        | room + 1 =>
          Reader.pass kind.width
          fill room ((pool.push .other).push .unusable)
      else
        let slot ← readBody kind
        fill room (pool.push slot)

/-- Reads the count of slots and the constants that fill them. -/
def read : Reader ConstantPool := do
  let count ← Reader.word16
  fill (count.toNat - 1) opening

/-- The text in a slot. -/
def utf8 (pool : ConstantPool) (index : UInt16) : Except Fault Bytes :=
  match pool.slots[index.toNat]? with
  | some (.utf8 text) => .ok text
  | _ => .error (.wrongSlot index.toNat .utf8)

/-- The name of the class in a slot, with a dot between its parts. -/
def className (pool : ConstantPool) (index : UInt16) : Except Fault String :=
  match pool.slots[index.toNat]? with
  | some (.classRef name) => nameOfText <$> pool.utf8 name
  | _ => .error (.wrongSlot index.toNat .classRef)

end ConstantPool

end JarCensus.ClassFile
