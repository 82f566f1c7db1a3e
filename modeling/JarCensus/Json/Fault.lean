import JarCensus.Text.Split
import JarCensus.Text.Utf8

/-!
# Faults of JSON documents

A document may end too early, break the grammar, or have another shape than the one
asked for. A fault carries the text that was left when it was found, which fixes its
line and column.
-/

namespace JarCensus.Json

/-- The kinds of faults. -/
inductive FaultKind where
  /-- The document ends before its value does. -/
  | early
  /-- The document is not JSON. -/
  | grammar
  /-- The document is JSON of another shape. -/
  | shape
  deriving DecidableEq, Repr

/-- What is wrong with a document. -/
inductive Cause where
  /-- The document ends where a value is expected. -/
  | endsInValue
  /-- The document ends within an array. -/
  | endsInArray
  /-- The document ends within an object. -/
  | endsInObject
  /-- The document ends within a text. -/
  | endsInString
  /-- No value starts here. -/
  | expectedValue
  /-- A word is neither of the three words of JSON. -/
  | expectedWord
  /-- A name is not followed by a colon. -/
  | expectedColon
  /-- An item is followed by neither a comma nor the end of the array. -/
  | expectedItemEnd
  /-- A field is followed by neither a comma nor the end of the object. -/
  | expectedFieldEnd
  /-- A comma stands before the end. -/
  | trailingComma
  /-- Something follows after the end. -/
  | trailingCharacters
  /-- A field does not start with a name. -/
  | nameNotString
  /-- A backslash is not followed by an escape. -/
  | invalidEscape
  /-- A number is not written as JSON asks. -/
  | invalidNumber
  /-- A number is too large. -/
  | numberOutOfRange
  /-- A surrogate stands alone. -/
  | loneSurrogate
  /-- A text holds a control character. -/
  | controlCharacter
  /-- An object has a field that is not known. -/
  | unknownField (name : String) (known : List String)
  /-- An object has a field twice. -/
  | duplicateField (name : String)
  /-- An object lacks a field. -/
  | missingField (name : String)
  /-- A value is of another kind than the one asked for. -/
  | wrongKind (expected : String)
  /-- An array is too short for the record that it stands for. -/
  | tooShort (count : Nat) (expected : String)
  deriving DecidableEq, Repr

namespace Cause

/-- The kind of a fault with the cause. -/
def kind : Cause → FaultKind
  | endsInValue | endsInArray | endsInObject | endsInString => .early
  | unknownField .. | duplicateField .. | missingField .. | wrongKind .. | tooShort .. => .shape
  | _ => .grammar

/-- A name between backquotes. -/
def ticked (name : String) : String := "\x60" ++ name ++ "\x60"

/-- The message of a cause. -/
def message : Cause → String
  | endsInValue => "EOF while parsing a value"
  | endsInArray => "EOF while parsing a list"
  | endsInObject => "EOF while parsing an object"
  | endsInString => "EOF while parsing a string"
  | expectedValue => "expected value"
  | expectedWord => "expected ident"
  | expectedColon => "expected " ++ ticked ":"
  | expectedItemEnd => "expected " ++ ticked "," ++ " or " ++ ticked "]"
  | expectedFieldEnd => "expected " ++ ticked "," ++ " or " ++ ticked "\x7d"
  | trailingComma => "trailing comma"
  | trailingCharacters => "trailing characters"
  | nameNotString => "key must be a string"
  | invalidEscape => "invalid escape"
  | invalidNumber => "invalid number"
  | numberOutOfRange => "number out of range"
  | loneSurrogate => "lone leading surrogate in hex escape"
  | controlCharacter => "control character (\\u0000-\\u001F) found while parsing a string"
  | unknownField name known =>
    "unknown field " ++ ticked name ++ ", expected one of " ++
      ", ".intercalate (known.map ticked)
  | duplicateField name => "duplicate field " ++ ticked name
  | missingField name => "missing field " ++ ticked name
  | wrongKind expected => "invalid type, expected " ++ expected
  | tooShort count expected => s!"invalid length {count}, expected {expected}"

end Cause

/-- A cause and the text that was left when it was found. -/
structure Fault where
  /-- What is wrong. -/
  cause : Cause
  /-- The text after the place of the fault. -/
  rest : List Char
  deriving DecidableEq, Repr

namespace Fault

/-- The line of a fault, counted from one, and the number of bytes before it in that
line. -/
def place (document : List Char) (fault : Fault) : Nat × Nat :=
  let before := document.take (document.length - fault.rest.length)
  let lines := Text.splitAt '\n' before
  (lines.length, Text.Utf8.size (lines.getLastD []))

/-- The message of a fault with its line and column. -/
def message (document : List Char) (fault : Fault) : String :=
  let (line, column) := fault.place document
  s!"{fault.cause.message} at line {line} column {column}"

end Fault

end JarCensus.Json
