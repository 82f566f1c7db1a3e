import JarCensus.Json.Fault
import JarCensus.Text.Utf16

/-!
# Reading the tokens of JSON

Blanks, words, numbers and texts, each read off the front of the text that is left.
-/

namespace JarCensus.Json

/-- A step that reads off the front of the text that is left. -/
abbrev Reader := StateT (List Char) (Except Fault)

/-- A fault at the given rest. -/
def faultAt {α : Type} (cause : Cause) (rest : List Char) : Except Fault α :=
  .error ⟨cause, rest⟩

namespace Token

/-- Whether JSON allows the character between tokens. -/
def isSpace (c : Char) : Bool := c == ' ' || c == '\n' || c == '\t' || c == '\r'

/-- The text without the blanks in front. -/
def dropSpace (text : List Char) : List Char := text.dropWhile isSpace

/-- Passes over blanks. -/
def space : Reader Unit := modify dropSpace

/-- Reads the rest of a word. -/
def word : List Char → Reader Unit
  | [] => pure ()
  | expected :: others => do
    match ← get with
    | [] => throw ⟨.endsInValue, []⟩
    | c :: rest =>
      set rest
      if c = expected then word others else throw ⟨.expectedWord, rest⟩

/-- The value of a hexadecimal digit. -/
def hexValue? (c : Char) : Option Nat :=
  if '0' ≤ c && c ≤ '9' then some (c.toNat - 48)
  else if 'a' ≤ c && c ≤ 'f' then some (c.toNat - 87)
  else if 'A' ≤ c && c ≤ 'F' then some (c.toNat - 55)
  else none

/-- The code unit of four hexadecimal digits. -/
def codeUnit? (a b c d : Char) : Option UInt16 := do
  let x ← hexValue? a
  let y ← hexValue? b
  let z ← hexValue? c
  let w ← hexValue? d
  return UInt16.ofNat (4096 * x + 256 * y + 16 * z + w)

/-- The character that a backslash and the given character stand for. -/
def escape? (c : Char) : Option Char :=
  match c with
  | '"' => some '"'
  | '\\' => some '\\'
  | '/' => some '/'
  | 'b' => some '\x08'
  | 'f' => some '\x0c'
  | 'n' => some '\n'
  | 'r' => some '\r'
  | 't' => some '\t'
  | _ => none

/-- The fault of fewer than four characters where hexadecimal digits are due. Four
bytes that are left count as digits of some kind. -/
def shortCodeUnit (rest : List Char) : Fault :=
  if 4 ≤ Text.Utf8.size rest then ⟨.invalidEscape, rest⟩ else ⟨.endsInString, []⟩

/-- The fault of a high surrogate that no low surrogate follows. -/
def brokenPair : List Char → Fault
  | [] => ⟨.endsInString, []⟩
  | '\\' :: rest =>
    match rest with
    | [] => ⟨.endsInString, []⟩
    | 'u' :: digits => shortCodeUnit digits
    | _ :: rest => ⟨.loneSurrogate, rest⟩
  | _ :: rest => ⟨.loneSurrogate, rest⟩

/-- Reads a text after its opening quote. `done` holds what was read, in reverse. -/
def stringFrom (done : List Char) : List Char → Except Fault (List Char × List Char)
  | [] => faultAt .endsInString []
  | c :: rest =>
    if c = '"' then .ok (done.reverse, rest)
    else if c = '\\' then
      match rest with
      | [] => faultAt .endsInString []
      | 'u' :: a :: b :: c :: d :: rest =>
        match codeUnit? a b c d with
        | none => faultAt .invalidEscape rest
        | some unit =>
          if Text.Utf16.isLowSurrogate unit then faultAt .loneSurrogate rest
          else if Text.Utf16.isHighSurrogate unit then
            match rest with
            | '\\' :: 'u' :: a :: b :: c :: d :: rest =>
              match codeUnit? a b c d with
              | none => faultAt .invalidEscape rest
              | some low =>
                if Text.Utf16.isLowSurrogate low then
                  stringFrom (Text.Utf16.ofPair unit low :: done) rest
                else faultAt .loneSurrogate rest
            | rest => .error (brokenPair rest)
          else stringFrom (Char.ofNat unit.toNat :: done) rest
      | 'u' :: digits => .error (shortCodeUnit digits)
      | e :: rest =>
        match escape? e with
        | some escaped => stringFrom (escaped :: done) rest
        | none => faultAt .invalidEscape rest
    else if c.toNat < 0x20 then faultAt .controlCharacter rest
    else stringFrom (c :: done) rest

/-- Reads a text after its opening quote. -/
def string : Reader (List Char) := fun text => stringFrom [] text

/-- The value of decimal digits. -/
def decimal (digits : List Char) : Nat :=
  digits.foldl (fun value c => 10 * value + (c.toNat - 48)) 0

/-- Reads digits, at least one. -/
def digits : Reader (List Char) := do
  match ← get with
  | [] => throw ⟨.endsInValue, []⟩
  | c :: rest =>
    if c.isDigit then
      set (rest.dropWhile (·.isDigit))
      return c :: rest.takeWhile (·.isDigit)
    else throw ⟨.invalidNumber, rest⟩

/-- Reads the digits before the point: a zero in front stands alone. -/
def wholeDigits : Reader (List Char) := do
  match ← get with
  | '0' :: c :: rest =>
    if c.isDigit then throw ⟨.invalidNumber, rest⟩
    set (c :: rest)
    return ['0']
  | _ => digits

/-- Reads the point and the digits after it, if there is a point. -/
def fraction : Reader (Option (List Char)) := do
  match ← get with
  | '.' :: rest =>
    set rest
    return some (← digits)
  | _ => return none

/-- Reads an exponent, if there is one. -/
def exponent : Reader (Option Int) := do
  match ← get with
  | c :: rest =>
    if c = 'e' ∨ c = 'E' then
      match rest with
      | '-' :: rest =>
        set rest
        return some (-(decimal (← digits) : Int))
      | '+' :: rest =>
        set rest
        return some (decimal (← digits) : Int)
      | rest =>
        set rest
        return some (decimal (← digits) : Int)
    else return none
  | [] => return none

/-- The digits taken onto a number as long as it fits 64 bits, and those left over. -/
def significand (value : Nat) : List Char → Nat × List Char
  | [] => (value, [])
  | c :: rest =>
    let longer := decimal [c] + 10 * value
    if longer < Bytes.end64 then significand longer rest else (value, c :: rest)

/-- The nearest number of at most 53 binary digits and zeros after them. Of two that are
equally near it is the one whose digits are even. -/
def nearestDouble (value : Nat) : Nat :=
  let step := Nat.pow 2 (value.log2 + 1 - 53)
  let lower := value / step
  let twice := 2 * (value % step)
  let goesUp := step < twice || (twice == step && lower % 2 == 1)
  (if goesUp then lower + 1 else lower) * step

/-- The least number that is out of range: half a unit beyond the greatest
double-precision number. -/
def rangeEnd : Nat := Nat.pow 2 1024 - Nat.pow 2 970

/-- Whether a number of 64 bits times a power of ten is out of range, when both are
double-precision numbers and so is their product. -/
def isOutOfRange (value : Nat) (power : Int) : Bool :=
  if value = 0 ∨ power < 0 then false
  else if 308 < power then true
  else rangeEnd ≤ nearestDouble value * nearestDouble (Nat.pow 10 power.natAbs)

/-- Reads a number after its sign, and gives its value when it is written as a natural
number of 64 bits without a sign. Of longer numbers only the digits that fit count, and
the others before the point are taken for zeros. -/
def number (isNegative : Bool) : Reader (Option Nat) := do
  let whole ← wholeDigits
  let part ← fraction
  let power ← exponent
  let (value, dropped) := significand 0 whole
  if part.isNone && power.isNone && dropped.isEmpty then
    return if isNegative then none else some value
  else
    let places := part.getD []
    let (value, unused) := significand value places
    let shift : Int := dropped.length - (places.length - unused.length : Nat)
    if isOutOfRange value (power.getD 0 + shift) then throw ⟨.numberOutOfRange, ← get⟩
    return none

/-- The fault of a value that is not of the expected kind. A text, a number or a word is
read to its end first, and of an array or an object only the bracket is looked at. -/
def wrongKind {α : Type} (expected : String) : Reader α := do
  match ← get with
  | [] => throw ⟨.endsInValue, []⟩
  | c :: rest =>
    match c with
    | 'n' =>
      set rest
      word ['u', 'l', 'l']
    | 't' =>
      set rest
      word ['r', 'u', 'e']
    | 'f' =>
      set rest
      word ['a', 'l', 's', 'e']
    | '"' =>
      set rest
      let _ ← string
    | '-' =>
      set rest
      let _ ← number true
    | '[' | '\x7b' => pure ()
    | _ => if c.isDigit then let _ ← number false else throw ⟨.expectedValue, rest⟩
    throw ⟨.wrongKind expected, ← get⟩

end Token

end JarCensus.Json
