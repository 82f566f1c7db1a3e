import JarCensus.ClassFile.ConstantPool

/-!
# Annotation tables

A table lists annotations, each with the descriptor of its type and pairs of an
element name and an element value. Values may hold arrays and further annotations;
only the type names of the outermost annotations are kept.
-/

namespace JarCensus.ClassFile

/-- The deepest level at which an element value may stand. -/
def deepestLevel : Nat := 32

/-- How an element value goes on after its tag. -/
inductive ElementForm where
  /-- Words that nothing here interprets. -/
  | words (count : Nat)
  /-- An annotation. -/
  | nested
  /-- A counted list of values. -/
  | array
  deriving DecidableEq, Repr

/-- The form that a tag announces. -/
def ElementForm.ofTag? (tag : UInt8) : Option ElementForm :=
  match Char.ofNat tag.toNat with
  | 'B' | 'C' | 'D' | 'F' | 'I' | 'J' | 'S' | 'Z' | 's' | 'c' => some (.words 1)
  | 'e' => some (.words 2)
  | '@' => some .nested
  | '[' => some .array
  | _ => none

/-- Passes over one element value for which the given number of levels is left. -/
def passValue : Nat → Reader Unit
  | 0 => throw (.tooDeep deepestLevel)
  | levels + 1 => do
    let tag ← Reader.byte
    match ElementForm.ofTag? tag with
    | none => throw (.unknownElement tag)
    | some (.words count) => Reader.pass (2 * count)
    | some .nested =>
      Reader.pass 2
      let count ← Reader.word16
      Reader.times count.toNat do
        Reader.pass 2
        passValue levels
    | some .array =>
      let count ← Reader.word16
      Reader.times count.toNat (passValue levels)

/-- Passes over the counted element pairs of an outermost annotation. -/
def passPairs : Reader Unit := do
  let count ← Reader.word16
  Reader.times count.toNat do
    Reader.pass 2
    passValue (deepestLevel + 1)

/-- Reads one annotation and adds its type name. -/
def readAnnotated (pool : ConstantPool) (names : Array String) : Reader (Array String) := do
  let type ← Reader.word16
  let descriptor ← pool.utf8 type
  passPairs
  return names.push (nameOfDescriptor descriptor)

/-- Reads the annotation table that fills a body exactly and adds its type names. -/
def readTable (pool : ConstantPool) (body : Cursor) (names : Array String) :
    Except Fault (Array String) := do
  let (count, start) ← Reader.word16 body
  let (names, finish) ← Reader.thread (readAnnotated pool) count.toNat names start
  let declared := body.rest.length
  let actual := finish.offset - body.offset
  if actual = declared then return names
  else throw (.shortTable declared actual)

end JarCensus.ClassFile
