import JarCensus.Text.Utf16

/-!
# Modified UTF-8

Class files spell text as UTF-16 code units of one to three bytes each, with NUL as
`C0 80` and a character beyond U+FFFF as two surrogates. Bytes that are UTF-8 as they
stand are read as UTF-8.
-/

namespace JarCensus.Text.ModifiedUtf8

/-- The unit that stands for a byte which begins no unit. -/
def replacementUnit : UInt16 := 0xFFFD

/-- Whether the byte may continue a unit. -/
def continues (byte : UInt8) : Bool :=
  byte &&& 0xC0 == 0x80

/-- The unit of a two-byte sequence. -/
def unit₂ (lead second : UInt8) : UInt16 :=
  UInt16.ofNat (64 * (lead.toNat % 32) + second.toNat % 64)

/-- The unit of a three-byte sequence. -/
def unit₃ (lead second third : UInt8) : UInt16 :=
  UInt16.ofNat (4096 * (lead.toNat % 16) + 64 * (second.toNat % 64) + third.toNat % 64)

/-- The code units of the bytes. A byte that begins no whole unit yields U+FFFD alone. -/
def units : Bytes → List UInt16
  | [] => []
  | lead :: rest =>
    if lead < 0x80 then lead.toUInt16 :: units rest
    else if lead &&& 0xE0 == 0xC0 then
      match rest with
      | [] => [replacementUnit]
      | second :: rest₂ =>
        if continues second then unit₂ lead second :: units rest₂
        else replacementUnit :: units (second :: rest₂)
    else if lead &&& 0xF0 == 0xE0 then
      match rest with
      | second :: third :: rest₃ =>
        if continues second && continues third then unit₃ lead second third :: units rest₃
        else replacementUnit :: units (second :: third :: rest₃)
      | [second] => replacementUnit :: units [second]
      | [] => [replacementUnit]
    else replacementUnit :: units rest

/-- The text of the bytes. -/
def decode (bytes : Bytes) : List Char :=
  match Utf8.decode? bytes with
  | some chars => chars
  | none => Utf16.decode (units bytes)

/-- The bytes of one code unit. NUL takes two bytes. -/
def encodeUnit (unit : UInt16) : Bytes :=
  let value := unit.toNat
  if value ≠ 0 ∧ value < 0x80 then [UInt8.ofNat value]
  else if value < 0x800 then
    [UInt8.ofNat (0xC0 + value / 64), UInt8.ofNat (0x80 + value % 64)]
  else
    [UInt8.ofNat (0xE0 + value / 4096), UInt8.ofNat (0x80 + value / 64 % 64),
      UInt8.ofNat (0x80 + value % 64)]

/-- The bytes of a sequence of code units. -/
def encode (units : List UInt16) : Bytes :=
  units.flatMap encodeUnit

end JarCensus.Text.ModifiedUtf8
