import JarCensus.Bytes

/-!
# AES with a 256-bit key

Blocks are four columns of four bytes. A round substitutes every byte, rotates the
rows, mixes each column and adds a round key; the last round mixes no columns.
Decryption undoes the rounds one by one in reverse order.
-/

namespace JarCensus.Cipher

/-- Four bytes, a column of a block. -/
structure Column where
  /-- The byte in the first row. -/
  a : UInt8
  /-- The byte in the second row. -/
  b : UInt8
  /-- The byte in the third row. -/
  c : UInt8
  /-- The byte in the fourth row. -/
  d : UInt8
  deriving DecidableEq, Repr, Inhabited

/-- Sixteen bytes, in four columns. -/
structure Block where
  /-- The first column. -/
  first : Column
  /-- The second column. -/
  second : Column
  /-- The third column. -/
  third : Column
  /-- The fourth column. -/
  fourth : Column
  deriving DecidableEq, Repr, Inhabited

namespace Column

/-- The sum of two columns, byte by byte. -/
def add (x y : Column) : Column :=
  ⟨x.a ^^^ y.a, x.b ^^^ y.b, x.c ^^^ y.c, x.d ^^^ y.d⟩

/-- Adding a byte twice changes nothing. -/
theorem xor_xor_self (x y : UInt8) : x ^^^ y ^^^ y = x := by
  rw [UInt8.xor_assoc, UInt8.xor_self, UInt8.xor_zero]

/-- Adding a column twice changes nothing. -/
theorem add_add_self (x y : Column) : (x.add y).add y = x := by
  simp only [add, xor_xor_self]

/-- The column with a function applied to each byte. -/
def map (f : UInt8 → UInt8) (x : Column) : Column := ⟨f x.a, f x.b, f x.c, f x.d⟩

/-- The bytes of a column, from the first row to the fourth. -/
def toBytes (x : Column) : Bytes := [x.a, x.b, x.c, x.d]

/-- The column with every byte one row higher. -/
def rotate (x : Column) : Column := ⟨x.b, x.c, x.d, x.a⟩

end Column

namespace Block

/-- The sum of two blocks, byte by byte. -/
def add (x y : Block) : Block :=
  ⟨x.first.add y.first, x.second.add y.second, x.third.add y.third, x.fourth.add y.fourth⟩

/-- The block with a function applied to each column. -/
def map (f : Column → Column) (x : Block) : Block :=
  ⟨f x.first, f x.second, f x.third, f x.fourth⟩

/-- The bytes of a block, column by column. -/
def toBytes (x : Block) : Bytes :=
  x.first.toBytes ++ x.second.toBytes ++ x.third.toBytes ++ x.fourth.toBytes

/-- The blocks that the bytes make up, when no byte is left over. -/
def ofBytes? : Bytes → Option (List Block)
  | [] => some []
  | a :: b :: c :: d :: e :: f :: g :: h :: i :: j :: k :: l :: m :: n :: o :: p :: rest =>
    (ofBytes? rest).map (⟨⟨a, b, c, d⟩, ⟨e, f, g, h⟩, ⟨i, j, k, l⟩, ⟨m, n, o, p⟩⟩ :: ·)
  | _ => none

/-- Adding a block twice changes nothing. -/
theorem add_add_self (x y : Block) : (x.add y).add y = x := by
  simp only [add, Column.add_add_self]

end Block

namespace Aes

/-- The substitution of bytes. -/
def substitutes : Array UInt8 :=
  #[0x63, 0x7C, 0x77, 0x7B, 0xF2, 0x6B, 0x6F, 0xC5, 0x30, 0x01, 0x67, 0x2B,
    0xFE, 0xD7, 0xAB, 0x76, 0xCA, 0x82, 0xC9, 0x7D, 0xFA, 0x59, 0x47, 0xF0,
    0xAD, 0xD4, 0xA2, 0xAF, 0x9C, 0xA4, 0x72, 0xC0, 0xB7, 0xFD, 0x93, 0x26,
    0x36, 0x3F, 0xF7, 0xCC, 0x34, 0xA5, 0xE5, 0xF1, 0x71, 0xD8, 0x31, 0x15,
    0x04, 0xC7, 0x23, 0xC3, 0x18, 0x96, 0x05, 0x9A, 0x07, 0x12, 0x80, 0xE2,
    0xEB, 0x27, 0xB2, 0x75, 0x09, 0x83, 0x2C, 0x1A, 0x1B, 0x6E, 0x5A, 0xA0,
    0x52, 0x3B, 0xD6, 0xB3, 0x29, 0xE3, 0x2F, 0x84, 0x53, 0xD1, 0x00, 0xED,
    0x20, 0xFC, 0xB1, 0x5B, 0x6A, 0xCB, 0xBE, 0x39, 0x4A, 0x4C, 0x58, 0xCF,
    0xD0, 0xEF, 0xAA, 0xFB, 0x43, 0x4D, 0x33, 0x85, 0x45, 0xF9, 0x02, 0x7F,
    0x50, 0x3C, 0x9F, 0xA8, 0x51, 0xA3, 0x40, 0x8F, 0x92, 0x9D, 0x38, 0xF5,
    0xBC, 0xB6, 0xDA, 0x21, 0x10, 0xFF, 0xF3, 0xD2, 0xCD, 0x0C, 0x13, 0xEC,
    0x5F, 0x97, 0x44, 0x17, 0xC4, 0xA7, 0x7E, 0x3D, 0x64, 0x5D, 0x19, 0x73,
    0x60, 0x81, 0x4F, 0xDC, 0x22, 0x2A, 0x90, 0x88, 0x46, 0xEE, 0xB8, 0x14,
    0xDE, 0x5E, 0x0B, 0xDB, 0xE0, 0x32, 0x3A, 0x0A, 0x49, 0x06, 0x24, 0x5C,
    0xC2, 0xD3, 0xAC, 0x62, 0x91, 0x95, 0xE4, 0x79, 0xE7, 0xC8, 0x37, 0x6D,
    0x8D, 0xD5, 0x4E, 0xA9, 0x6C, 0x56, 0xF4, 0xEA, 0x65, 0x7A, 0xAE, 0x08,
    0xBA, 0x78, 0x25, 0x2E, 0x1C, 0xA6, 0xB4, 0xC6, 0xE8, 0xDD, 0x74, 0x1F,
    0x4B, 0xBD, 0x8B, 0x8A, 0x70, 0x3E, 0xB5, 0x66, 0x48, 0x03, 0xF6, 0x0E,
    0x61, 0x35, 0x57, 0xB9, 0x86, 0xC1, 0x1D, 0x9E, 0xE1, 0xF8, 0x98, 0x11,
    0x69, 0xD9, 0x8E, 0x94, 0x9B, 0x1E, 0x87, 0xE9, 0xCE, 0x55, 0x28, 0xDF,
    0x8C, 0xA1, 0x89, 0x0D, 0xBF, 0xE6, 0x42, 0x68, 0x41, 0x99, 0x2D, 0x0F,
    0xB0, 0x54, 0xBB, 0x16]

/-- The inverse of the substitution of bytes. -/
def unsubstitutes : Array UInt8 :=
  #[0x52, 0x09, 0x6A, 0xD5, 0x30, 0x36, 0xA5, 0x38, 0xBF, 0x40, 0xA3, 0x9E,
    0x81, 0xF3, 0xD7, 0xFB, 0x7C, 0xE3, 0x39, 0x82, 0x9B, 0x2F, 0xFF, 0x87,
    0x34, 0x8E, 0x43, 0x44, 0xC4, 0xDE, 0xE9, 0xCB, 0x54, 0x7B, 0x94, 0x32,
    0xA6, 0xC2, 0x23, 0x3D, 0xEE, 0x4C, 0x95, 0x0B, 0x42, 0xFA, 0xC3, 0x4E,
    0x08, 0x2E, 0xA1, 0x66, 0x28, 0xD9, 0x24, 0xB2, 0x76, 0x5B, 0xA2, 0x49,
    0x6D, 0x8B, 0xD1, 0x25, 0x72, 0xF8, 0xF6, 0x64, 0x86, 0x68, 0x98, 0x16,
    0xD4, 0xA4, 0x5C, 0xCC, 0x5D, 0x65, 0xB6, 0x92, 0x6C, 0x70, 0x48, 0x50,
    0xFD, 0xED, 0xB9, 0xDA, 0x5E, 0x15, 0x46, 0x57, 0xA7, 0x8D, 0x9D, 0x84,
    0x90, 0xD8, 0xAB, 0x00, 0x8C, 0xBC, 0xD3, 0x0A, 0xF7, 0xE4, 0x58, 0x05,
    0xB8, 0xB3, 0x45, 0x06, 0xD0, 0x2C, 0x1E, 0x8F, 0xCA, 0x3F, 0x0F, 0x02,
    0xC1, 0xAF, 0xBD, 0x03, 0x01, 0x13, 0x8A, 0x6B, 0x3A, 0x91, 0x11, 0x41,
    0x4F, 0x67, 0xDC, 0xEA, 0x97, 0xF2, 0xCF, 0xCE, 0xF0, 0xB4, 0xE6, 0x73,
    0x96, 0xAC, 0x74, 0x22, 0xE7, 0xAD, 0x35, 0x85, 0xE2, 0xF9, 0x37, 0xE8,
    0x1C, 0x75, 0xDF, 0x6E, 0x47, 0xF1, 0x1A, 0x71, 0x1D, 0x29, 0xC5, 0x89,
    0x6F, 0xB7, 0x62, 0x0E, 0xAA, 0x18, 0xBE, 0x1B, 0xFC, 0x56, 0x3E, 0x4B,
    0xC6, 0xD2, 0x79, 0x20, 0x9A, 0xDB, 0xC0, 0xFE, 0x78, 0xCD, 0x5A, 0xF4,
    0x1F, 0xDD, 0xA8, 0x33, 0x88, 0x07, 0xC7, 0x31, 0xB1, 0x12, 0x10, 0x59,
    0x27, 0x80, 0xEC, 0x5F, 0x60, 0x51, 0x7F, 0xA9, 0x19, 0xB5, 0x4A, 0x0D,
    0x2D, 0xE5, 0x7A, 0x9F, 0x93, 0xC9, 0x9C, 0xEF, 0xA0, 0xE0, 0x3B, 0x4D,
    0xAE, 0x2A, 0xF5, 0xB0, 0xC8, 0xEB, 0xBB, 0x3C, 0x83, 0x53, 0x99, 0x61,
    0x17, 0x2B, 0x04, 0x7E, 0xBA, 0x77, 0xD6, 0x26, 0xE1, 0x69, 0x14, 0x63,
    0x55, 0x21, 0x0C, 0x7D]

/-- The byte that stands for another. -/
def substitute (x : UInt8) : UInt8 := substitutes.getD x.toNat 0

/-- The byte that another stands for. -/
def unsubstitute (x : UInt8) : UInt8 := unsubstitutes.getD x.toNat 0

/-- Twice a byte, in the field of 256 elements. -/
def double (x : UInt8) : UInt8 :=
  if x < 0x80 then x <<< 1 else (x <<< 1) ^^^ 0x1B

/-- Three times a byte. -/
def triple (x : UInt8) : UInt8 := double x ^^^ x

/-- The column multiplied by the mixing matrix. -/
def mix (x : Column) : Column :=
  ⟨double x.a ^^^ triple x.b ^^^ x.c ^^^ x.d,
    x.a ^^^ double x.b ^^^ triple x.c ^^^ x.d,
    x.a ^^^ x.b ^^^ double x.c ^^^ triple x.d,
    triple x.a ^^^ x.b ^^^ x.c ^^^ double x.d⟩

/-- The column multiplied by the inverse of the mixing matrix, which is the mixing
matrix times a matrix that adds four times each byte and its opposite to both. -/
def unmix (x : Column) : Column :=
  let even := double (double (x.a ^^^ x.c))
  let odd := double (double (x.b ^^^ x.d))
  mix ⟨x.a ^^^ even, x.b ^^^ odd, x.c ^^^ even, x.d ^^^ odd⟩

/-- The block with each row rotated left by its number. -/
def shiftRows (x : Block) : Block :=
  ⟨⟨x.first.a, x.second.b, x.third.c, x.fourth.d⟩,
    ⟨x.second.a, x.third.b, x.fourth.c, x.first.d⟩,
    ⟨x.third.a, x.fourth.b, x.first.c, x.second.d⟩,
    ⟨x.fourth.a, x.first.b, x.second.c, x.third.d⟩⟩

/-- The block with each row rotated right by its number. -/
def unshiftRows (x : Block) : Block :=
  ⟨⟨x.first.a, x.fourth.b, x.third.c, x.second.d⟩,
    ⟨x.second.a, x.first.b, x.fourth.c, x.third.d⟩,
    ⟨x.third.a, x.second.b, x.first.c, x.fourth.d⟩,
    ⟨x.fourth.a, x.third.b, x.second.c, x.first.d⟩⟩

/-- Rotating the rows right undoes rotating them left. -/
theorem unshiftRows_shiftRows (x : Block) : unshiftRows (shiftRows x) = x := rfl

/-- Rotating the rows left undoes rotating them right. -/
theorem shiftRows_unshiftRows (x : Block) : shiftRows (unshiftRows x) = x := rfl

/-- The round keys of a cipher key. -/
structure Schedule where
  /-- The key added before the first round. -/
  opening : Block
  /-- The keys of the rounds that mix columns. -/
  rounds : List Block
  /-- The key of the last round. -/
  closing : Block
  deriving Repr, Inhabited

/-- The constants of the key expansion. -/
def roundConstants : List UInt8 := [0x01, 0x02, 0x04, 0x08, 0x10, 0x20, 0x40]

/-- The next eight columns of the expanded key. -/
def expandStep (constant : UInt8) (last : Block × Block) : Block × Block :=
  let (x, y) := last
  let turned := y.fourth.rotate.map substitute
  let first := (x.first.add turned).add ⟨constant, 0, 0, 0⟩
  let second := x.second.add first
  let third := x.third.add second
  let fourth := x.fourth.add third
  let fifth := y.first.add (fourth.map substitute)
  let sixth := y.second.add fifth
  let seventh := y.third.add sixth
  let eighth := y.fourth.add seventh
  (⟨first, second, third, fourth⟩, ⟨fifth, sixth, seventh, eighth⟩)

/-- The round keys after the first two, two for each constant. -/
def expandFrom (last : Block × Block) : List UInt8 → List Block
  | [] => []
  | constant :: rest =>
    let next := expandStep constant last
    next.1 :: next.2 :: expandFrom next rest

/-- The fifteen round keys of the two halves of a 256-bit key. -/
def expand (front back : Block) : Schedule :=
  let keys := expandFrom (front, back) roundConstants
  ⟨front, back :: keys.take 12, keys.getD 12 default⟩

/-- A round that mixes columns. -/
def forward (x key : Block) : Block :=
  (((shiftRows (x.map (Column.map substitute)))).map mix).add key

/-- The inverse of a round that mixes columns. -/
def backward (x key : Block) : Block :=
  (unshiftRows ((x.add key).map unmix)).map (Column.map unsubstitute)

/-- The block enciphered under the round keys. -/
def encipher (keys : Schedule) (x : Block) : Block :=
  let mixed := keys.rounds.foldl forward (x.add keys.opening)
  (shiftRows (mixed.map (Column.map substitute))).add keys.closing

/-- The block deciphered under the round keys. -/
def decipher (keys : Schedule) (x : Block) : Block :=
  let mixed := (unshiftRows (x.add keys.closing)).map (Column.map unsubstitute)
  (keys.rounds.reverse.foldl backward mixed).add keys.opening

end Aes

end JarCensus.Cipher
