import JarCensus.Hex
import JarCensus.Json.Token
import JarCensus.Json.Value
import Mathlib.Data.List.Forall2

/-!
# Spellings of JSON values

A document spells a tree: its tokens stand in the order of the tree, with any blanks
between them, in front and behind. A character of a text may stand for itself or be
escaped in any way. The order of fields is part of the tree, and so is the way a number is
written.
-/

namespace JarCensus.Json

/-! ## Numbers -/

/-- Decimal digits, at least one. -/
structure Digits where
  /-- The digits. -/
  chars : List Char
  ne_nil : chars ≠ []
  isDigit : ∀ c ∈ chars, c.isDigit = true

/-- The exponent of a number. -/
structure Exponent where
  /-- The letter in front. -/
  mark : Char
  mark_mem : mark ∈ ['e', 'E']
  /-- The sign, if there is one. -/
  sign : List Char
  sign_mem : sign ∈ [[], ['+'], ['-']]
  /-- The digits after the sign. -/
  digits : Digits

/-- A number as it is written. -/
structure Numeral where
  /-- Whether a minus stands in front. -/
  isNegative : Bool
  /-- The part in front of the point. -/
  whole : Nat
  /-- The digits after the point, if there is one. -/
  fraction : Option Digits
  /-- The exponent, if there is one. -/
  exponent : Option Exponent

namespace Numeral

/-- The digits of a natural number. -/
def ofNat (value : Nat) : Numeral := ⟨false, value, none, none⟩

/-- What follows the part in front of the point. -/
def tail (numeral : Numeral) : List Char :=
  (numeral.fraction.map ('.' :: ·.chars)).getD [] ++
    (numeral.exponent.map fun power => power.mark :: power.sign ++ power.digits.chars).getD []

/-- What follows the sign. -/
def unsigned (numeral : Numeral) : List Char := Nat.toDigits 10 numeral.whole ++ numeral.tail

/-- The characters of a number. -/
def chars (numeral : Numeral) : List Char :=
  (if numeral.isNegative then ['-'] else []) ++ numeral.unsigned

end Numeral

/-! ## Texts -/

/-- The letters after a backslash and the characters that they stand for. -/
def shortEscapes : List (Char × Char) :=
  [('"', '"'), ('\\', '\\'), ('/', '/'), ('b', '\x08'), ('f', '\x0c'), ('n', '\n'),
    ('r', '\r'), ('t', '\t')]

/-- Whether a text spells a code unit by its four hexadecimal digits. -/
def SpellsUnit (unit : UInt16) (text : List Char) : Prop :=
  ∃ digits, List.Forall₂ Hex.IsDigitOf
    [unit.toNat / 4096, unit.toNat / 256 % 16, unit.toNat / 16 % 16, unit.toNat % 16] digits ∧
      text = '\\' :: 'u' :: digits

/-- Whether a text between quotes spells a character. -/
inductive SpellsChar (c : Char) : List Char → Prop where
  /-- The character itself. -/
  | plain : c ≠ '"' → c ≠ '\\' → 0x20 ≤ c.toNat → SpellsChar c [c]
  /-- A backslash and a letter. -/
  | short {letter : Char} : (letter, c) ∈ shortEscapes → SpellsChar c ['\\', letter]
  /-- The code units of the character. -/
  | units {texts : List (List Char)} :
    List.Forall₂ SpellsUnit (Text.Utf16.encodeChar c) texts → SpellsChar c texts.flatten

/-- Whether a text between quotes spells characters. -/
inductive SpellsChars : List Char → List Char → Prop where
  /-- No character. -/
  | nil : SpellsChars [] []
  /-- A character in front of others. -/
  | cons {c : Char} {rest own others : List Char} : SpellsChar c own →
    SpellsChars rest others → SpellsChars (c :: rest) (own ++ others)

/-- Whether a text with its quotes spells a text. -/
def SpellsString (value : String) (text : List Char) : Prop :=
  ∃ inner, SpellsChars value.toList inner ∧ text = '"' :: inner ++ ['"']

/-! ## Trees -/

/-- A JSON value with its numbers as they are written. -/
inductive Tree where
  /-- The value without content. -/
  | null
  /-- A truth value. -/
  | bool (value : Bool)
  /-- A number. -/
  | number (numeral : Numeral)
  /-- A text. -/
  | string (value : String)
  /-- A row of values. -/
  | array (items : List Tree)
  /-- Named values. -/
  | object (fields : List (String × Tree))

namespace Tree

/-- A row of texts. -/
def ofStrings (texts : List String) : Tree := array (texts.map string)

end Tree

mutual

/-- The tree of a value. -/
def Value.tree : Value → Tree
  | .null => .null
  | .bool value => .bool value
  | .number value => .number (.ofNat value)
  | .string value => .string value
  | .array items => .array (itemTrees items)
  | .object fields => .object (fieldTrees fields)

/-- The trees of the values in a row. -/
def itemTrees : List Value → List Tree
  | [] => []
  | item :: rest => item.tree :: itemTrees rest

/-- The trees of named values. -/
def fieldTrees : List (String × Value) → List (String × Tree)
  | [] => []
  | (name, value) :: rest => (name, value.tree) :: fieldTrees rest

end

/-- Whether a text consists of blanks. -/
def Blank (text : List Char) : Prop := ∀ c ∈ text, Token.isSpace c = true

/-- Whether a text spells items that follow another. -/
inductive SpellsMore {α : Type} (spells : α → List Char → Prop) : List α → List Char → Prop where
  /-- No item. -/
  | nil : SpellsMore spells [] []
  /-- A comma and an item in front of others. -/
  | cons {item : α} {rest : List α} {own others : List Char} : spells item own →
    SpellsMore spells rest others → SpellsMore spells (item :: rest) (',' :: (own ++ others))

/-- Whether a text spells items with commas between them. -/
inductive SpellsRow {α : Type} (spells : α → List Char → Prop) : List α → List Char → Prop where
  /-- No item. -/
  | none {text : List Char} : Blank text → SpellsRow spells [] text
  /-- An item in front of others. -/
  | some {item : α} {rest : List α} {own others : List Char} : spells item own →
    SpellsMore spells rest others → SpellsRow spells (item :: rest) (own ++ others)

mutual

/-- Whether a text spells a tree. -/
inductive Spells : Tree → List Char → Prop where
  /-- Blanks around the tokens of the tree. -/
  | padded {tree : Tree} {before tokens after : List Char} : Blank before →
    SpellsBare tree tokens → Blank after → Spells tree (before ++ tokens ++ after)

/-- Whether a text from the first to the last token of a tree spells it. -/
inductive SpellsBare : Tree → List Char → Prop where
  /-- The value without content. -/
  | null : SpellsBare .null ['n', 'u', 'l', 'l']
  /-- Truth. -/
  | true : SpellsBare (.bool true) ['t', 'r', 'u', 'e']
  /-- Falsity. -/
  | false : SpellsBare (.bool false) ['f', 'a', 'l', 's', 'e']
  /-- The characters of a number. -/
  | number (numeral : Numeral) : SpellsBare (.number numeral) numeral.chars
  /-- A text between quotes. -/
  | string {value : String} {text : List Char} : SpellsString value text →
    SpellsBare (.string value) text
  /-- A row between brackets. -/
  | array {items : List Tree} {text : List Char} : SpellsRow Spells items text →
    SpellsBare (.array items) ('[' :: (text ++ [']']))
  /-- Named values between braces. -/
  | object {fields : List (String × Tree)} {text : List Char} : SpellsRow SpellsField fields text →
    SpellsBare (.object fields) ('\x7b' :: (text ++ ['\x7d']))

/-- Whether a text spells a named value. -/
inductive SpellsField : String × Tree → List Char → Prop where
  /-- The name, a colon and the value, with blanks around the name. -/
  | named {name : String} {tree : Tree} {before label after own : List Char} : Blank before →
    SpellsString name label → Blank after → Spells tree own →
    SpellsField (name, tree) (before ++ label ++ after ++ ':' :: own)

end

end JarCensus.Json
