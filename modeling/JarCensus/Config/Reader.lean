import JarCensus.Config.Basic
import JarCensus.Json.Token

/-!
# Reading configurations

A configuration is read from left to right, and the first problem met decides. Its two
records are objects whose fields may come in any order, each at most once and none that
is not known, or arrays of the fields in their order. Fields of the outer record may be
null or missing; of the inner record only the key has to be there.
-/

namespace JarCensus.Config

open Json (Reader Cause)
open Json.Token (space)

/-- Reads a text. -/
def readString : Reader String := do
  space
  match ← get with
  | '"' :: rest =>
    set rest
    return String.ofList (← Json.Token.string)
  | _ => Json.Token.wrongKind "a string"

/-- Reads a natural number of 64 bits. -/
def readCount : Reader Nat := do
  let expected := "a count"
  let read (isNegative : Bool) : Reader Nat := do
    match ← Json.Token.number isNegative with
    | some count => return count
    | none => throw ⟨.wrongKind expected, ← get⟩
  space
  match ← get with
  | '-' :: rest =>
    set rest
    read true
  | c :: _ => if c.isDigit then read false else Json.Token.wrongKind expected
  | [] => Json.Token.wrongKind expected

/-- Reads a value or null. -/
def readOptional {α : Type} (read : Reader α) : Reader (Option α) := do
  space
  match ← get with
  | 'n' :: rest =>
    set rest
    Json.Token.word ['u', 'l', 'l']
    return none
  | _ => some <$> read

/-- Looks for the next item of an array and gives whether there is one. -/
def nextItem (isFirst : Bool) : Reader Bool := do
  space
  match ← get with
  | [] => throw ⟨.endsInArray, []⟩
  | ']' :: _ => return false
  | c :: rest =>
    if isFirst then return true
    else if c = ',' then
      set rest
      space
      match ← get with
      | [] => throw ⟨.endsInValue, []⟩
      | ']' :: rest => throw ⟨.trailingComma, rest⟩
      | _ => return true
    else throw ⟨.expectedItemEnd, rest⟩

/-- Passes over the end of an array, before which nothing may be left. -/
def endArray : Reader Unit := do
  space
  match ← get with
  | [] => throw ⟨.endsInArray, []⟩
  | ']' :: rest => set rest
  | ',' :: rest =>
    match Json.Token.dropSpace rest with
    | ']' :: rest => throw ⟨.trailingComma, rest⟩
    | rest => throw ⟨.trailingCharacters, rest.drop 1⟩
  | _ :: rest => throw ⟨.trailingCharacters, rest⟩

/-- Reads the items of an array, at most as many as the fuel says. -/
def readItems {α : Type} (read : Reader α) : Nat → Bool → Array α → Reader (Array α)
  | 0, _, items => return items
  | fuel + 1, isFirst, items => do
    if ← nextItem isFirst then
      let item ← read
      readItems read fuel false (items.push item)
    else return items

/-- Reads an array of texts. -/
def readStrings : Reader (List String) := do
  space
  match ← get with
  | '[' :: rest =>
    set rest
    let items ← readItems readString (rest.length + 1) true #[]
    endArray
    return items.toList
  | _ => Json.Token.wrongKind "a sequence"

/-- Looks for the next field of an object and gives its name, if there is one. -/
def nextField (isFirst : Bool) : Reader (Option String) := do
  let name (rest : List Char) : Reader (Option String) := do
    set rest
    return some (String.ofList (← Json.Token.string))
  space
  match ← get with
  | [] => throw ⟨.endsInObject, []⟩
  | '\x7d' :: _ => return none
  | c :: rest =>
    if isFirst then
      if c = '"' then name rest else throw ⟨.nameNotString, rest⟩
    else if c = ',' then
      match Json.Token.dropSpace rest with
      | [] => throw ⟨.endsInValue, []⟩
      | '"' :: rest => name rest
      | '\x7d' :: rest => throw ⟨.trailingComma, rest⟩
      | _ :: rest => throw ⟨.nameNotString, rest⟩
    else throw ⟨.expectedFieldEnd, rest⟩

/-- Passes over the colon after a name. -/
def colon : Reader Unit := do
  space
  match ← get with
  | [] => throw ⟨.endsInObject, []⟩
  | ':' :: rest => set rest
  | _ :: rest => throw ⟨.expectedColon, rest⟩

/-- Reports a fault of the fields of an object. Its place is after the blanks and the
closing brace that may follow. -/
def fieldFault {α : Type} (cause : Cause) : Reader α := do
  space
  match ← get with
  | '\x7d' :: rest => throw ⟨cause, rest⟩
  | rest => throw ⟨cause, rest⟩

/-- Reads the fields of an object, at most as many as the fuel says. -/
def readFields {α : Type} (field : String → α → Reader α) : Nat → Bool → α → Reader α
  | 0, _, value => return value
  | fuel + 1, isFirst, value => do
    match ← nextField isFirst with
    | none => return value
    | some name => readFields field fuel false (← field name value)

/-- Reads a record written as an object or as an array. `ofFields` makes the record of
its fields and `ofItems` reads it in their order. -/
def readRecord {α β : Type} (expected : String) (blank : β) (field : String → β → Reader β)
    (ofFields : β → Reader α) (ofItems : Reader α) : Reader α := do
  space
  match ← get with
  | '[' :: rest =>
    set rest
    let record ← ofItems
    endArray
    return record
  | '\x7b' :: rest =>
    set rest
    let fields ← readFields field (rest.length + 1) true blank
    let record ← ofFields fields
    modify (·.drop 1)
    return record
  | _ => Json.Token.wrongKind expected

/-- Reads the value of a field that was not read before. -/
def once {α : Type} (name : String) (before : Option α) (read : Reader α) :
    Reader (Option α) := do
  if before.isSome then fieldFault (.duplicateField name)
  else
    colon
    some <$> read

/-- The next item of an array, if there is one. -/
def itemOr {α : Type} (isFirst : Bool) (read : Reader α) : Reader (Option α) := do
  if ← nextItem isFirst then some <$> read else return none

/-- The fields of the inner record that were read so far. -/
structure DecryptionFields where
  /-- The marker of protected paths. -/
  protectedMarker : Option String
  /-- The marker of exempted paths. -/
  syntheticMarker : Option String
  /-- The key. -/
  key : Option String
  /-- The seed. -/
  seed : Option String

namespace DecryptionFields

/-- The names of the fields. -/
def names : List String :=
  ["protected_path_marker", "synthetic_marker", "decryption_key", "key_derivation_seed"]

/-- No field. -/
def blank : DecryptionFields := ⟨none, none, none, none⟩

/-- Reads the field of a name. -/
def read (name : String) (fields : DecryptionFields) : Reader DecryptionFields := do
  match name with
  | "protected_path_marker" =>
    return { fields with protectedMarker := ← once name fields.protectedMarker readString }
  | "synthetic_marker" =>
    return { fields with syntheticMarker := ← once name fields.syntheticMarker readString }
  | "decryption_key" => return { fields with key := ← once name fields.key readString }
  | "key_derivation_seed" => return { fields with seed := ← once name fields.seed readString }
  | _ => fieldFault (.unknownField name names)

/-- The record of the fields, which have to hold a key. -/
def record (fields : DecryptionFields) : Reader GateConfig := do
  match fields.key with
  | none => fieldFault (.missingField "decryption_key")
  | some key =>
    return ⟨fields.protectedMarker.getD GateConfig.standardProtectedMarker,
      fields.syntheticMarker.getD GateConfig.standardSyntheticMarker, key,
      fields.seed.getD ""⟩

/-- Reads the record from the items of an array. -/
def ofItems : Reader GateConfig := do
  let protectedMarker ← itemOr true readString
  let syntheticMarker ← itemOr protectedMarker.isNone readString
  match ← itemOr syntheticMarker.isNone readString with
  | none => throw ⟨.tooShort 2 "decryption with 4 elements", (← get).drop 1⟩
  | some key =>
    let seed ← itemOr false readString
    return ⟨protectedMarker.getD GateConfig.standardProtectedMarker,
      syntheticMarker.getD GateConfig.standardSyntheticMarker, key, seed.getD ""⟩

end DecryptionFields

/-- Reads the inner record. -/
def readDecryption : Reader GateConfig :=
  readRecord "decryption" DecryptionFields.blank DecryptionFields.read DecryptionFields.record
    DecryptionFields.ofItems

/-- The fields of the outer record that were read so far. -/
structure Fields where
  /-- How entries are decrypted. -/
  decryption : Option (Option GateConfig)
  /-- The number of workers. -/
  threads : Option (Option Nat)
  /-- The annotations of models. -/
  modelAnnotations : Option (Option (List String))
  /-- The annotations of converters. -/
  converterAnnotations : Option (Option (List String))

namespace Fields

/-- The names of the fields. -/
def names : List String :=
  ["decryption", "threads", "model_annotations", "converter_annotations"]

/-- No field. -/
def blank : Fields := ⟨none, none, none, none⟩

/-- Reads the field of a name. -/
def read (name : String) (fields : Fields) : Reader Fields := do
  match name with
  | "decryption" =>
    return { fields with
      decryption := ← once name fields.decryption (readOptional readDecryption) }
  | "threads" =>
    return { fields with threads := ← once name fields.threads (readOptional readCount) }
  | "model_annotations" =>
    return { fields with
      modelAnnotations := ← once name fields.modelAnnotations (readOptional readStrings) }
  | "converter_annotations" =>
    return { fields with
      converterAnnotations := ←
        once name fields.converterAnnotations (readOptional readStrings) }
  | _ => fieldFault (.unknownField name names)

/-- The record of the fields. -/
def record (fields : Fields) : Config :=
  ⟨fields.decryption.join, fields.threads.join, fields.modelAnnotations.join,
    fields.converterAnnotations.join⟩

/-- Reads the record from the items of an array. -/
def ofItems : Reader Config := do
  let decryption ← itemOr true (readOptional readDecryption)
  let threads ← itemOr decryption.isNone (readOptional readCount)
  let modelAnnotations ← itemOr threads.isNone (readOptional readStrings)
  let converterAnnotations ← itemOr modelAnnotations.isNone (readOptional readStrings)
  return record ⟨decryption, threads, modelAnnotations, converterAnnotations⟩

end Fields

/-- Reads a whole document. -/
def readDocument : Reader Config := do
  let config ← readRecord "a configuration" Fields.blank Fields.read
    (fun fields => return fields.record) Fields.ofItems
  space
  match ← get with
  | [] => return config
  | _ :: rest => throw ⟨.trailingCharacters, rest⟩

/-- The configuration that a document holds. -/
def parse (document : List Char) : Except Json.Fault Config :=
  (readDocument.run document).map (·.1)

/-- Why a configuration file does not give a configuration. -/
inductive FileFault where
  /-- The file cannot be read, for the given reason. -/
  | unreadable (path reason : String)
  /-- The document in the file has a fault. -/
  | malformed (path : String) (document : List Char) (fault : Json.Fault)

/-- The message of a fault followed by that of its cause. -/
def FileFault.chain : FileFault → List String
  | .unreadable path reason => [s!"Failed to read config file: {path}", reason]
  | .malformed path document fault =>
    [s!"Failed to parse config file: {path}", fault.message document]

/-- The configuration in the bytes of the file at a path. -/
def ofBytes (path : String) (bytes : Bytes) : Except FileFault Config :=
  match Text.Utf8.decode? bytes with
  | none => .error (.unreadable path "stream did not contain valid UTF-8")
  | some document => (parse document).mapError (.malformed path document)

end JarCensus.Config
