import JarCensus.Text.Unprintable

/-!
# Quoted text

The diagnostic form of text and characters: between quotes, with a backslash before
the quote and the backslash, the short forms of NUL, tab, line feed and carriage
return, and the code point in braces for what cannot be shown.
-/

namespace JarCensus.Text.Quoted

/-- A code point in hexadecimal between braces. -/
def byNumber (c : Char) : List Char :=
  "\\u\x7b".toList ++ Nat.toDigits 16 c.toNat ++ ['\x7d']

/-- One character as it stands between the given quotes. -/
def escape (quote c : Char) : List Char :=
  if c == '\x00' then ['\\', '0']
  else if c == '\t' then ['\\', 't']
  else if c == '\r' then ['\\', 'r']
  else if c == '\n' then ['\\', 'n']
  else if c == '\\' || c == quote then ['\\', c]
  else if isUnprintable c then byNumber c
  else [c]

/-- The text between double quotes. -/
def text (s : String) : String :=
  String.ofList ('"' :: s.toList.flatMap (escape '"') ++ ['"'])

/-- The character between single quotes. -/
def char (c : Char) : String :=
  String.ofList ('\x27' :: escape '\x27' c ++ ['\x27'])

/-- The texts between brackets, separated by commas. -/
def texts (items : List String) : String :=
  "[" ++ ", ".intercalate (items.map text) ++ "]"

/-- A value that may be absent. -/
def optional (value : Option String) : String :=
  match value with
  | none => "None"
  | some shown => "Some(" ++ shown ++ ")"

end JarCensus.Text.Quoted
