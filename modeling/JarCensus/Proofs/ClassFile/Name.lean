import JarCensus.ClassFile.ConstantPool
import JarCensus.Proofs.Text.ModifiedUtf8

/-!
# Names in class files are read back

A name without slashes is the one that its class constant and its descriptor are read as,
whatever characters it holds: NUL and characters beyond U+FFFF, whose bytes are no
well-formed UTF-8, included.
-/

namespace JarCensus.ClassFile

/-- Dots become slashes and dots again exactly when there was no slash before. -/
theorem dotted_slashed_eq_iff {chars : List Char} :
    dotted (slashed chars) = chars ↔ '/' ∉ chars := by
  unfold dotted slashed
  induction chars with
  | nil => simp
  | cons c chars ih =>
    simp only [List.map_cons, List.cons.injEq, ih, List.mem_cons, not_or]
    refine and_congr_left fun _ => ?_
    by_cases hdot : c = '.'
    · subst hdot
      decide
    · by_cases hslash : c = '/'
      · subst hslash
        decide
      · simp [hdot, hslash, Ne.symm hslash]

/-- The name inside a written descriptor is the one it was written with. -/
theorem bare_descriptor (chars : List Char) : bare ('L' :: chars ++ [';']) = chars := by
  simp [bare]

/-- A text entry spells the name that it was written with, its slashes replaced by dots. -/
theorem nameOfText_textOfName (name : String) :
    nameOfText (textOfName name) = String.ofList (dotted (slashed name.toList)) := by
  rw [nameOfText, textOfName, Text.ModifiedUtf8.decode_encode, Text.Utf16.decode_encode]

/-- A descriptor spells the name that it was written with, its slashes replaced by dots. -/
theorem nameOfDescriptor_descriptorOfName (name : String) :
    nameOfDescriptor (descriptorOfName name) = String.ofList (dotted (slashed name.toList)) := by
  rw [nameOfDescriptor, descriptorOfName, Text.ModifiedUtf8.decode_encode,
    Text.Utf16.decode_encode, bare_descriptor]

/-- The names that are read back are those without slashes. -/
theorem ofList_dotted_slashed_eq_iff {name : String} :
    String.ofList (dotted (slashed name.toList)) = name ↔ '/' ∉ name.toList := by
  rw [← dotted_slashed_eq_iff, ← String.toList_inj, String.toList_ofList]

/-- A class constant gives the name that its text entry spells. -/
theorem ConstantPool.className_of_slots {pool : ConstantPool} {index text : UInt16} {bytes : Bytes}
    (hclass : pool.slots[index.toNat]? = some (.classRef text))
    (htext : pool.slots[text.toNat]? = some (.utf8 bytes)) :
    pool.className index = .ok (nameOfText bytes) := by
  have hbytes : pool.utf8 text = .ok bytes := by simp only [utf8, htext]
  simp only [className, hclass, hbytes]
  rfl

/-- How text and names in class files are read back. -/
structure NamesSurvive : Prop where
  /-- The text of the bytes of code units is the one that the units spell, with U+FFFD for each
  unpaired surrogate, and no other. -/
  units : ∀ (sequence : List UInt16) (chars : List Char),
    Text.ModifiedUtf8.decode (Text.ModifiedUtf8.encode sequence) = chars ↔
      Text.Utf16.Spells sequence chars
  /-- A class constant whose text entry spells a name, with slashes for dots, is read as this name
  exactly when the name has no slash. -/
  classes : ∀ (pool : ConstantPool) (index text : UInt16) (name : String),
    pool.slots[index.toNat]? = some (.classRef text) →
    pool.slots[text.toNat]? = some (.utf8 (textOfName name)) →
    (pool.className index = .ok name ↔ '/' ∉ name.toList)
  /-- A descriptor that spells a name, with slashes for dots, is read as this name exactly when the
  name has no slash. -/
  descriptors : ∀ name : String,
    nameOfDescriptor (descriptorOfName name) = name ↔ '/' ∉ name.toList
  /-- Well-formed UTF-8 is what spells characters, and is read as these characters. -/
  wellFormed : ∀ (bytes : Bytes) (chars : List Char),
    Text.Utf8.decode? bytes = some chars ↔ bytes = Text.Utf8.encode chars
  /-- On well-formed UTF-8 without four-byte sequences the code units spell the same text. -/
  agreement : ∀ (bytes : Bytes) (chars : List Char), (∀ byte ∈ bytes, byte < 0xF0) →
    Text.Utf8.decode? bytes = some chars →
    Text.Utf16.decode (Text.ModifiedUtf8.units bytes) = chars

/-- Text and names are read back from modified UTF-8. -/
theorem names_survive : NamesSurvive where
  units := by
    intro sequence chars
    rw [Text.ModifiedUtf8.decode_encode, Text.Utf16.spells_iff]
  classes := by
    intro pool index text name hclass htext
    rw [ConstantPool.className_of_slots hclass htext, nameOfText_textOfName, Except.ok.injEq,
      ofList_dotted_slashed_eq_iff]
  descriptors := by
    intro name
    rw [nameOfDescriptor_descriptorOfName, ofList_dotted_slashed_eq_iff]
  wellFormed := fun _ _ => Text.Utf8.decode?_eq_some_iff
  agreement := by
    intro bytes chars hshort hread
    exact Text.ModifiedUtf8.decode_units_of_decode? hread hshort

end JarCensus.ClassFile
