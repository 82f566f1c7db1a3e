import JarCensus.Bytes

/-!
# UTF-8

Reading follows the table of well-formed byte sequences: the lead byte fixes the
range of the second byte, and every later byte lies between `0x80` and `0xBF`. An
ill-formed stretch is as long as the longest start of a well-formed sequence that
it contains, so strict reading refuses exactly where lenient reading puts U+FFFD.
-/

namespace JarCensus.Text

/-- The character that stands for bytes or code units that spell none. -/
def replacement : Char := '\uFFFD'

namespace Utf8

/-- Whether the byte lies in the range of continuation bytes. -/
def isTail (byte : UInt8) : Bool :=
  0x80 ≤ byte && byte ≤ 0xBF

/-- Whether the second byte of a sequence may follow the lead byte. The narrowed
ranges exclude overlong forms, surrogates and values above U+10FFFF. -/
def mayFollow (lead second : UInt8) : Bool :=
  if lead < 0xC2 then false
  else if lead == 0xE0 then 0xA0 ≤ second && second ≤ 0xBF
  else if lead == 0xED then 0x80 ≤ second && second ≤ 0x9F
  else if lead == 0xF0 then 0x90 ≤ second && second ≤ 0xBF
  else if lead == 0xF4 then 0x80 ≤ second && second ≤ 0x8F
  else if lead < 0xF4 then isTail second
  else false

/-- The character whose code point has the given leading bits followed by six bits
of each continuation byte. -/
def scalar (leading : Nat) (tails : Bytes) : Char :=
  Char.ofNat (tails.foldl (fun value byte => 64 * value + byte.toNat % 64) leading)

/-- The characters of the bytes, with `none` for each ill-formed stretch. -/
def pieces : Bytes → List (Option Char)
  | [] => []
  | lead :: rest =>
    if lead < 0x80 then some (Char.ofNat lead.toNat) :: pieces rest
    else
      match rest with
      | [] => [none]
      | second :: rest₂ =>
        if !mayFollow lead second then none :: pieces (second :: rest₂)
        else if lead < 0xE0 then some (scalar (lead.toNat % 32) [second]) :: pieces rest₂
        else
          match rest₂ with
          | [] => [none]
          | third :: rest₃ =>
            if !isTail third then none :: pieces (third :: rest₃)
            else if lead < 0xF0 then
              some (scalar (lead.toNat % 16) [second, third]) :: pieces rest₃
            else
              match rest₃ with
              | [] => [none]
              | fourth :: rest₄ =>
                if !isTail fourth then none :: pieces (fourth :: rest₄)
                else some (scalar (lead.toNat % 8) [second, third, fourth]) :: pieces rest₄

/-- The characters of well-formed bytes. -/
def decode? (bytes : Bytes) : Option (List Char) :=
  (pieces bytes).mapM id

/-- The characters of any bytes, with U+FFFD for each ill-formed stretch. -/
def decodeLossy (bytes : Bytes) : List Char :=
  (pieces bytes).map (·.getD replacement)

/-- The number of bytes that spell the characters. -/
def size (chars : List Char) : Nat := chars.foldl (fun count c => count + c.utf8Size) 0

/-- The bytes that spell the characters. -/
def encode (chars : List Char) : Bytes :=
  chars.flatMap String.utf8EncodeChar

end Utf8

end JarCensus.Text
