import JarCensus.Bytes

/-!
# SHA-256

The message is padded to whole blocks of sixteen 32-bit words; each block is expanded
to 64 words that turn eight chaining words.
-/

namespace JarCensus.Cipher.Sha256

/-- The eight chaining words. -/
structure State where
  /-- The first word. -/
  a : UInt32
  /-- The second word. -/
  b : UInt32
  /-- The third word. -/
  c : UInt32
  /-- The fourth word. -/
  d : UInt32
  /-- The fifth word. -/
  e : UInt32
  /-- The sixth word. -/
  f : UInt32
  /-- The seventh word. -/
  g : UInt32
  /-- The eighth word. -/
  h : UInt32
  deriving DecidableEq, Repr

/-- The words before the first block. -/
def opening : State :=
  ⟨0x6A09E667, 0xBB67AE85, 0x3C6EF372, 0xA54FF53A,
    0x510E527F, 0x9B05688C, 0x1F83D9AB, 0x5BE0CD19⟩

/-- The constant of each of the 64 turns. -/
def constants : List UInt32 :=
  [0x428A2F98, 0x71374491, 0xB5C0FBCF, 0xE9B5DBA5, 0x3956C25B, 0x59F111F1, 0x923F82A4,
    0xAB1C5ED5, 0xD807AA98, 0x12835B01, 0x243185BE, 0x550C7DC3, 0x72BE5D74, 0x80DEB1FE,
    0x9BDC06A7, 0xC19BF174, 0xE49B69C1, 0xEFBE4786, 0x0FC19DC6, 0x240CA1CC, 0x2DE92C6F,
    0x4A7484AA, 0x5CB0A9DC, 0x76F988DA, 0x983E5152, 0xA831C66D, 0xB00327C8, 0xBF597FC7,
    0xC6E00BF3, 0xD5A79147, 0x06CA6351, 0x14292967, 0x27B70A85, 0x2E1B2138, 0x4D2C6DFC,
    0x53380D13, 0x650A7354, 0x766A0ABB, 0x81C2C92E, 0x92722C85, 0xA2BFE8A1, 0xA81A664B,
    0xC24B8B70, 0xC76C51A3, 0xD192E819, 0xD6990624, 0xF40E3585, 0x106AA070, 0x19A4C116,
    0x1E376C08, 0x2748774C, 0x34B0BCB5, 0x391C0CB3, 0x4ED8AA4A, 0x5B9CCA4F, 0x682E6FF3,
    0x748F82EE, 0x78A5636F, 0x84C87814, 0x8CC70208, 0x90BEFFFA, 0xA4506CEB, 0xBEF9A3F7,
    0xC67178F2]

/-- The word rotated right. -/
def rotate (word count : UInt32) : UInt32 :=
  (word >>> count) ||| (word <<< (32 - count))

/-- The 64 words of a block, made from its sixteen words. -/
def schedule : Nat → Array UInt32 → Array UInt32
  | 0, words => words
  | count + 1, words =>
    let back := fun distance => words.getD (words.size - distance) 0
    let early := back 15
    let late := back 2
    let earlyMix := rotate early 7 ^^^ rotate early 18 ^^^ (early >>> 3)
    let lateMix := rotate late 17 ^^^ rotate late 19 ^^^ (late >>> 10)
    schedule count (words.push (lateMix + back 7 + earlyMix + back 16))

/-- One turn of the chaining words. -/
def turn (s : State) (input : UInt32 × UInt32) : State :=
  let choice := (s.e &&& s.f) ^^^ ((~~~ s.e) &&& s.g)
  let majority := (s.a &&& s.b) ^^^ (s.a &&& s.c) ^^^ (s.b &&& s.c)
  let lower := rotate s.e 6 ^^^ rotate s.e 11 ^^^ rotate s.e 25
  let upper := rotate s.a 2 ^^^ rotate s.a 13 ^^^ rotate s.a 22
  let fresh := s.h + lower + choice + input.1 + input.2
  ⟨fresh + (upper + majority), s.a, s.b, s.c, s.d + fresh, s.e, s.f, s.g⟩

/-- The chaining words after one block. -/
def compress (s : State) (block : List UInt32) : State :=
  let words := schedule 48 block.toArray
  let t := (constants.zip words.toList).foldl turn s
  ⟨s.a + t.a, s.b + t.b, s.c + t.c, s.d + t.d, s.e + t.e, s.f + t.f, s.g + t.g, s.h + t.h⟩

/-- The big-endian words of the bytes. -/
def words : Bytes → List UInt32
  | a :: b :: c :: d :: rest => Bytes.word32 a b c d :: words rest
  | _ => []

/-- The message with a one bit, zeros to the end of a block, and its length in bits. -/
def pad (message : Bytes) : Bytes :=
  let zeros := (119 - message.length % 64) % 64
  let bits := 8 * message.length
  message ++ 0x80 :: List.replicate zeros 0 ++
    Bytes.ofWord32 (UInt32.ofNat (bits / 4294967296)) ++ Bytes.ofWord32 (UInt32.ofNat bits)

/-- The chaining words after the given count of blocks. -/
def absorb : Nat → State → List UInt32 → State
  | 0, s, _ => s
  | count + 1, s, message => absorb count (compress s (message.take 16)) (message.drop 16)

/-- The digest of a message, of 32 bytes. -/
def digest (message : Bytes) : Bytes :=
  let padded := words (pad message)
  let s := absorb (padded.length / 16) opening padded
  [s.a, s.b, s.c, s.d, s.e, s.f, s.g, s.h].flatMap Bytes.ofWord32

/-- Every digest has 32 bytes. -/
@[simp] theorem digest_length (message : Bytes) : (digest message).length = 32 := by
  simp [digest, Bytes.ofWord32]

end JarCensus.Cipher.Sha256
