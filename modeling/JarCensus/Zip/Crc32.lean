import JarCensus.Bytes

/-!
# The cyclic redundancy check of archives

The check of 32 bits with the reflected polynomial `0xEDB88320`.
-/

namespace JarCensus.Zip.Crc32

/-- The register after the given number of bits. -/
def shift : Nat → UInt32 → UInt32
  | 0, register => register
  | bits + 1, register =>
    let next := register >>> 1
    shift bits (if register &&& 1 == 1 then next ^^^ 0xEDB88320 else next)

/-- The register after one byte. -/
def step (register : UInt32) (byte : UInt8) : UInt32 :=
  shift 8 (register ^^^ byte.toUInt32)

/-- The check value of the bytes. -/
def checksum (bytes : Bytes) : UInt32 :=
  bytes.foldl step 0xFFFFFFFF ^^^ 0xFFFFFFFF

end JarCensus.Zip.Crc32
