import JarCensus.Text.ModifiedUtf8

/-!
# Names in class files

Class files write a class name with slashes between its parts and a type as a
descriptor, `L` + name + `;`. Names are shown with dots.
-/

namespace JarCensus.ClassFile

/-- The text with dots for slashes. -/
def dotted (chars : List Char) : List Char :=
  chars.map fun c => if c == '/' then '.' else c

/-- The text with slashes for dots. -/
def slashed (chars : List Char) : List Char :=
  chars.map fun c => if c == '.' then '/' else c

/-- The name inside a descriptor `L…;`, and any other text as it is. -/
def bare (chars : List Char) : List Char :=
  match chars with
  | 'L' :: rest => if rest.getLast? == some ';' then rest.dropLast else chars
  | _ => chars

/-- The class name that the bytes of a text entry spell. -/
def nameOfText (text : Bytes) : String :=
  String.ofList (dotted (Text.ModifiedUtf8.decode text))

/-- The type name that the bytes of a descriptor spell. -/
def nameOfDescriptor (text : Bytes) : String :=
  String.ofList (dotted (bare (Text.ModifiedUtf8.decode text)))

/-- The bytes of a text entry that spell a class name. -/
def textOfName (name : String) : Bytes :=
  Text.ModifiedUtf8.encode (Text.Utf16.encode (slashed name.toList))

/-- The bytes of the descriptor of a type. -/
def descriptorOfName (name : String) : Bytes :=
  Text.ModifiedUtf8.encode (Text.Utf16.encode ('L' :: slashed name.toList ++ [';']))

end JarCensus.ClassFile
