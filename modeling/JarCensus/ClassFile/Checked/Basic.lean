import JarCensus.ClassFile.Fault
import JarCensus.Bytes

/-!
# Checked steps over bytes that stay in place

A cursor takes bytes off the front of what is left. Where the bytes stay in place, a reader
is a window on them: a position and an end, which are machine numbers. The body of an
attribute is a window of its own, that is open inside the window of the file.

Every operation on machine numbers and every access to bytes is checked here. One that is
not defined for its operands is a breach and ends the run. A run also records the windows
that are open whenever one of them is opened or moves, the depth of every element value, and
every number that is cut down to 16 bits.
-/

namespace JarCensus.ClassFile

/-- A reader's place in bytes that stay where they are. -/
structure Window where
  /-- All bytes, those before the place included. -/
  data : Bytes
  /-- The number of bytes before the place. -/
  position : Nat
  /-- The number of bytes before the end of what may be read. -/
  stop : Nat
  deriving DecidableEq, Repr

/-- The window of a whole file at its start. -/
def Window.whole (data : Bytes) : Window := ⟨data, 0, data.length⟩

/-- An operation that is not defined for its operands. -/
inductive Breach where
  /-- A difference below zero. -/
  | negative (minuend subtrahend : Nat)
  /-- A number that a machine word does not hold: all it holds are below the limit. -/
  | tooLarge (number limit : Nat)
  /-- A stretch of bytes that ends before it starts or after the bytes do. -/
  | wrongStretch (start finish length : Nat)
  /-- A byte behind the last one. -/
  | wrongIndex (index length : Nat)
  deriving DecidableEq, Repr

/-- Why a checked run ends without a value. -/
inductive Halt where
  /-- The bytes have a fault. -/
  | fault (fault : Fault)
  /-- An operation is not defined for its operands. -/
  | breach (breach : Breach)
  deriving DecidableEq, Repr

/-- What a checked run records of itself. -/
inductive Event where
  /-- The windows that are open, from the innermost to that of the file. -/
  | windows (live : List Window)
  /-- An element value starts at a depth. -/
  | value (depth : Nat)
  /-- A number is cut down to 16 bits. -/
  | narrowed (number : Nat)
  deriving DecidableEq, Repr

/-- A step inside of the given windows that moves a window of its own, or halts. What is recorded
last stands first in the record. -/
abbrev Checked := ReaderT (List Window) (StateT Window (ExceptT Halt (StateM (List Event))))

namespace Checked

/-- The end of the numbers of 32 bits. -/
def end32 : Nat := 4294967296

/-- Ends the run with a fault of the bytes. -/
def fail {α : Type} (fault : Fault) : Checked α := throw (.fault fault)

/-- The outcome of a look-up in what was read before. -/
def found {α : Type} : Except Fault α → Checked α
  | .ok value => pure value
  | .error fault => fail fault

/-- Adds to the record. -/
def record (event : Event) : Checked Unit := modifyThe (List Event) (event :: ·)

/-- The difference of two machine numbers. -/
def difference (minuend subtrahend : Nat) : Checked Nat :=
  if subtrahend ≤ minuend then pure (minuend - subtrahend)
  else throw (.breach (.negative minuend subtrahend))

/-- A sum or a product as a machine number below a limit. -/
def fit (limit number : Nat) : Checked { word : Nat // word = number } :=
  if number < limit then pure ⟨number, rfl⟩ else throw (.breach (.tooLarge number limit))

/-- The bytes from one place to another. -/
def stretch (data : Bytes) (start finish : Nat) : Checked Bytes :=
  if start ≤ finish ∧ finish ≤ data.length then pure ((data.drop start).take (finish - start))
  else throw (.breach (.wrongStretch start finish data.length))

/-- The byte at an index. -/
def byteAt (data : Bytes) (index : Nat) : Checked UInt8 :=
  match data[index]? with
  | some byte => pure byte
  | none => throw (.breach (.wrongIndex index data.length))

/-- The lowest 16 bits of a number. -/
def narrow (number : Nat) : Checked Nat := do
  record (.narrowed number)
  return number % 65536

/-- Moves the window to a position. -/
def moveTo (position : Nat) : Checked Unit := do
  let window := { (← get) with position }
  set window
  record (.windows (window :: (← readThe (List Window))))

/-- Takes the next `count` bytes. -/
def take (count : Nat) : Checked Bytes := do
  let window ← get
  let remaining ← difference window.stop window.position
  if remaining < count then
    let lacking ← difference count remaining
    fail (.truncated window.position lacking)
  else
    let finish ← fit Bytes.end64 (window.position + count)
    let taken ← stretch window.data window.position finish
    moveTo finish
    return taken

/-- Passes over the next `count` bytes. -/
def pass (count : Nat) : Checked Unit := do
  let _ ← take count

/-- Passes over the next `count` bytes and opens a window on them. -/
def body (count : Nat) : Checked Window := do
  let start := (← get).position
  pass count
  let window ← get
  let stop ← fit Bytes.end64 (start + count)
  let inner : Window := ⟨window.data, start, stop⟩
  record (.windows (inner :: window :: (← readThe (List Window))))
  return inner

/-- Takes a step in a window of its own, inside of the current one. -/
def inside {α : Type} (inner : Window) (step : Checked α) : Checked α := fun around window => do
  let (value, _) ← step (window :: around) inner
  return (value, window)

/-- Takes one byte. -/
def byte : Checked UInt8 := do
  let bytes ← take 1
  byteAt bytes 0

/-- Takes a 16-bit word. -/
def word16 : Checked UInt16 := do
  let bytes ← take 2
  return Bytes.word16 (← byteAt bytes 0) (← byteAt bytes 1)

/-- Takes a 32-bit word. -/
def word32 : Checked UInt32 := do
  let bytes ← take 4
  return Bytes.word32 (← byteAt bytes 0) (← byteAt bytes 1) (← byteAt bytes 2)
    (← byteAt bytes 3)

/-- Runs a step `count` times on a value that each run may change. -/
def thread {α : Type} (step : α → Checked α) : Nat → α → Checked α
  | 0, value => pure value
  | count + 1, value => do
    thread step count (← step value)

/-- Runs a step `count` times. -/
def times (count : Nat) (step : Checked Unit) : Checked Unit :=
  thread (fun _ => step) count ()

end Checked

end JarCensus.ClassFile
