import JarCensus.ClassFile.ConstantPool

/-!
# Encoded constants

What the constants of a pool consist of, which bytes stand for them, and which slots
they fill, apart from any reader.
-/

namespace JarCensus.ClassFile

/-- A constant of the pool. -/
inductive Constant where
  /-- A text. -/
  | utf8 (text : Bytes)
  /-- A class named by the text in a slot. -/
  | classRef (name : UInt16)
  /-- A constant of another kind with the bytes after its tag. -/
  | plain (kind : ConstantKind) (content : Bytes)
  deriving DecidableEq, Repr

namespace Constant

/-- The kind of a constant. -/
def kind : Constant → ConstantKind
  | utf8 _ => .utf8
  | classRef _ => .classRef
  | plain kind _ => kind

/-- The bytes of a constant. -/
def encode : Constant → Bytes
  | utf8 text => ConstantKind.utf8.tag :: Bytes.ofWord16 (.ofNat text.length) ++ text
  | classRef name => ConstantKind.classRef.tag :: Bytes.ofWord16 name
  | plain kind content => kind.tag :: content

/-- Whether the lengths of a constant are those of its kind. -/
def WellFormed : Constant → Prop
  | utf8 text => text.length < 65536
  | classRef _ => True
  | plain kind content => kind ≠ .utf8 ∧ kind ≠ .classRef ∧ content.length = kind.width

/-- The slots that a constant fills. -/
def slots : Constant → List Slot
  | utf8 text => [.utf8 text]
  | classRef name => [.classRef name]
  | plain kind _ => if kind.isWide then [.other, .unusable] else [.other]

end Constant

/-- The slots that constants fill after slot zero. -/
def slotsOf (constants : List Constant) : List Slot := constants.flatMap Constant.slots

/-- The pool of constants, slot zero included. -/
def ConstantPool.ofConstants (constants : List Constant) : ConstantPool :=
  ⟨(.unusable :: slotsOf constants).toArray⟩

end JarCensus.ClassFile
