import JarCensus.Text.Utf8

/-!
# UTF-16 code units

A high surrogate followed by a low surrogate spells one character beyond U+FFFF.
A surrogate that stands alone is read as U+FFFD.
-/

namespace JarCensus.Text.Utf16

/-- Whether the unit opens a surrogate pair. -/
def isHighSurrogate (unit : UInt16) : Bool :=
  0xD800 ≤ unit && unit ≤ 0xDBFF

/-- Whether the unit closes a surrogate pair. -/
def isLowSurrogate (unit : UInt16) : Bool :=
  0xDC00 ≤ unit && unit ≤ 0xDFFF

/-- The character of a surrogate pair. -/
def ofPair (high low : UInt16) : Char :=
  Char.ofNat (0x10000 + 1024 * (high.toNat - 0xD800) + (low.toNat - 0xDC00))

/-- The characters that the units spell. -/
def decode : List UInt16 → List Char
  | [] => []
  | unit :: rest =>
    if isHighSurrogate unit then
      match rest with
      | [] => [replacement]
      | next :: rest₂ =>
        if isLowSurrogate next then ofPair unit next :: decode rest₂
        else replacement :: decode (next :: rest₂)
    else if isLowSurrogate unit then replacement :: decode rest
    else Char.ofNat unit.toNat :: decode rest

/-- The units of one character. A character beyond U+FFFF takes a surrogate pair. -/
def encodeChar (c : Char) : List UInt16 :=
  let value := c.toNat
  if value < 0x10000 then [UInt16.ofNat value]
  else
    [UInt16.ofNat (0xD800 + (value - 0x10000) / 0x400),
      UInt16.ofNat (0xDC00 + (value - 0x10000) % 0x400)]

/-- The units that spell the characters. -/
def encode (chars : List Char) : List UInt16 :=
  chars.flatMap encodeChar

end JarCensus.Text.Utf16
