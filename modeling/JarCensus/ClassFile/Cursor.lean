import JarCensus.Bytes
import JarCensus.ClassFile.Fault

/-!
# Reading class files front to back

A cursor is what is left of the bytes together with the offset at which it starts.
Readers take bytes off the front or name the offset where bytes are missing. A
cursor over the body of an attribute keeps the offset in the whole file, so faults
inside the body are reported at their place in the file.
-/

namespace JarCensus.ClassFile

/-- A place in a class file with the bytes that may still be read. -/
structure Cursor where
  /-- The number of bytes before the place. -/
  offset : Nat
  /-- The readable bytes after the place. -/
  rest : Bytes
  deriving DecidableEq, Repr

/-- The start of a class file. -/
def Cursor.start (bytes : Bytes) : Cursor := ⟨0, bytes⟩

/-- A step that moves a cursor or finds a fault. -/
abbrev Reader := StateT Cursor (Except Fault)

namespace Reader

/-- Takes the next `count` bytes. -/
def take (count : Nat) : Reader Bytes := fun cursor =>
  let lacking := Bytes.missing count cursor.rest
  if lacking = 0 then
    .ok (cursor.rest.take count, ⟨cursor.offset + count, cursor.rest.drop count⟩)
  else .error (.truncated cursor.offset lacking)

/-- Passes over the next `count` bytes. -/
def pass (count : Nat) : Reader Unit := do
  let _ ← take count

/-- Splits off the next `count` bytes as a cursor of their own. -/
def body (count : Nat) : Reader Cursor := fun cursor =>
  match take count cursor with
  | .ok (bytes, after) => .ok (⟨cursor.offset, bytes⟩, after)
  | .error fault => .error fault

/-- Takes one byte. -/
def byte : Reader UInt8 := fun cursor =>
  match cursor.rest with
  | first :: rest => .ok (first, ⟨cursor.offset + 1, rest⟩)
  | [] => .error (.truncated cursor.offset 1)

/-- Takes a 16-bit word. -/
def word16 : Reader UInt16 := fun cursor =>
  match cursor.rest with
  | high :: low :: rest => .ok (Bytes.word16 high low, ⟨cursor.offset + 2, rest⟩)
  | short => .error (.truncated cursor.offset (2 - short.length))

/-- Takes a 32-bit word. -/
def word32 : Reader UInt32 := fun cursor =>
  match cursor.rest with
  | a :: b :: c :: d :: rest => .ok (Bytes.word32 a b c d, ⟨cursor.offset + 4, rest⟩)
  | short => .error (.truncated cursor.offset (4 - short.length))

/-- Runs a step `count` times. -/
def times : Nat → Reader Unit → Reader Unit
  | 0, _ => pure ()
  | count + 1, step => do
    step
    times count step

/-- Runs a step `count` times on a value that each run may change. -/
def thread {α : Type} (step : α → Reader α) : Nat → α → Reader α
  | 0, value => pure value
  | count + 1, value => do
    thread step count (← step value)

end Reader

end JarCensus.ClassFile
