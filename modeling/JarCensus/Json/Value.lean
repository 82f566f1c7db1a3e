/-!
# JSON values and their written form

Objects keep the order of their fields. Values are written in one line, or in lines
indented by two spaces for each level; empty arrays and objects stay in one line.
Text is escaped where JSON asks for it and nowhere else.
-/

namespace JarCensus.Json

/-- A JSON value without fractions. -/
inductive Value where
  /-- The value without content. -/
  | null
  /-- A truth value. -/
  | bool (value : Bool)
  /-- A number. -/
  | number (value : Nat)
  /-- A text. -/
  | string (value : String)
  /-- A row of values. -/
  | array (items : List Value)
  /-- Named values. -/
  | object (fields : List (String × Value))
  deriving Repr

namespace Value

/-- A text that may be absent. -/
def ofOption (value : Option String) : Value :=
  match value with
  | none => null
  | some text => string text

/-- A row of texts. -/
def ofStrings (texts : List String) : Value := array (texts.map string)

end Value

/-- A character as it stands within quotes. -/
def escapeChar (c : Char) : List Char :=
  if c == '"' then ['\\', '"']
  else if c == '\\' then ['\\', '\\']
  else if c == '\n' then ['\\', 'n']
  else if c == '\r' then ['\\', 'r']
  else if c == '\t' then ['\\', 't']
  else if c == '\x08' then ['\\', 'b']
  else if c == '\x0c' then ['\\', 'f']
  else if c.toNat < 0x20 then
    ['\\', 'u', '0', '0', Nat.digitChar (c.toNat / 16), Nat.digitChar (c.toNat % 16)]
  else [c]

/-- A text between quotes. -/
def quote (text : String) : List Char :=
  '"' :: text.toList.flatMap escapeChar ++ ['"']

/-- A line break followed by the indentation of a level. -/
def newline (level : Nat) : List Char := '\n' :: List.replicate (2 * level) ' '

/-- How values are laid out. -/
inductive Layout where
  /-- Everything in one line. -/
  | compact
  /-- Each item in a line of its own. -/
  | indented
  deriving DecidableEq, Repr

/-- What stands in front of an item at a level. -/
def Layout.lead (layout : Layout) (level : Nat) : List Char :=
  match layout with
  | .compact => []
  | .indented => newline level

/-- What stands between a name and its value. -/
def Layout.colon : Layout → List Char
  | .compact => [':']
  | .indented => [':', ' ']

mutual

/-- The written form of a value at a level. -/
def write (layout : Layout) (level : Nat) : Value → List Char
  | .null => "null".toList
  | .bool true => "true".toList
  | .bool false => "false".toList
  | .number value => Nat.toDigits 10 value
  | .string value => quote value
  | .array [] => ['[', ']']
  | .array (item :: rest) =>
    '[' :: layout.lead (level + 1) ++ write layout (level + 1) item ++
      writeItems layout (level + 1) rest ++ layout.lead level ++ [']']
  | .object [] => ['\x7b', '\x7d']
  | .object ((name, value) :: rest) =>
    '\x7b' :: layout.lead (level + 1) ++ quote name ++ layout.colon ++
      write layout (level + 1) value ++ writeFields layout (level + 1) rest ++
      layout.lead level ++ ['\x7d']

/-- The written form of the items after the first. -/
def writeItems (layout : Layout) (level : Nat) : List Value → List Char
  | [] => []
  | item :: rest =>
    ',' :: layout.lead level ++ write layout level item ++ writeItems layout level rest

/-- The written form of the fields after the first. -/
def writeFields (layout : Layout) (level : Nat) : List (String × Value) → List Char
  | [] => []
  | (name, value) :: rest =>
    ',' :: layout.lead level ++ quote name ++ layout.colon ++ write layout level value ++
      writeFields layout level rest

end

/-- The value in indented lines. -/
def Value.pretty (value : Value) : String := String.ofList (write .indented 0 value)

/-- The value in one line. -/
def Value.compress (value : Value) : String := String.ofList (write .compact 0 value)

end JarCensus.Json
