import JarCensus.Cipher.Chaining
import JarCensus.Cipher.Sha256
import JarCensus.ClassFile.Fault
import JarCensus.Text.Utf8

/-!
# Keys and the standard cipher

A key of ten bytes and a seed that is not empty fix a cipher key and a first block:
the digest of key and seed, and the first half of the digest of seed and key.
-/

namespace JarCensus.Decryption

/-- Why decryption cannot be set up. -/
inductive SetupError where
  /-- The key does not have the expected number of bytes. -/
  | wrongKeyLength (expected actual : Nat)
  /-- The seed is empty. -/
  | noSeed
  /-- The marker of protected paths is empty. -/
  | noMarker
  deriving DecidableEq, Repr

/-- The message of a setup error. -/
def SetupError.message : SetupError → String
  | .wrongKeyLength expected actual =>
    s!"decryption key must be {expected} bytes, got {actual}"
  | .noSeed => "key derivation seed must not be empty"
  | .noMarker => "protected path marker must not be empty"

/-- The number of bytes of a key. -/
def keyLength : Nat := 10

/-- A key and the seed that goes with it. -/
structure Secret where
  /-- The key bytes. -/
  key : Bytes
  /-- The seed text. -/
  seed : String
  /-- A key has its fixed length. -/
  key_length : key.length = keyLength
  /-- A seed is not empty. -/
  seed_ne_empty : seed ≠ ""
  deriving DecidableEq, Repr

namespace Secret

/-- The secret of a key and a seed. The length of the key is checked first. -/
def make (key : Bytes) (seed : String) : Except SetupError Secret :=
  if hkey : key.length = keyLength then
    if hseed : seed = "" then .error .noSeed
    else .ok ⟨key, seed, hkey, hseed⟩
  else .error (.wrongKeyLength keyLength key.length)

/-- A secret is made exactly from a key of the right length and a seed. -/
theorem make_eq_ok_iff {key : Bytes} {seed : String} {secret : Secret} :
    make key seed = .ok secret ↔ secret.key = key ∧ secret.seed = seed := by
  unfold make
  constructor
  · intro h
    split at h
    · split at h
      · simp at h
      · obtain rfl := by simpa using h
        exact ⟨rfl, rfl⟩
    · simp at h
  · rintro ⟨rfl, rfl⟩
    simp [secret.key_length, secret.seed_ne_empty]

/-- The diagnostic form, which shows neither key nor seed. -/
def shown : String := "KeyMaterial \x7b key: \"<redacted>\", seed: \"<redacted>\" \x7d"

/-- The bytes of the seed. -/
def seedBytes (secret : Secret) : Bytes := Text.Utf8.encode secret.seed.toList

end Secret

/-- Why protected bytes could not be opened. -/
inductive TransformError where
  /-- The transform gave a reason. -/
  | refused (reason : String)
  /-- What the transform makes of the bytes is not a class file. A transform may say so itself. -/
  | rejected (fault : ClassFile.Fault)
  deriving DecidableEq, Repr

/-- A keyed transform that opens protected bytes. -/
abbrev Transform := Secret → Bytes → Except TransformError Bytes

namespace StandardCipher

/-- The round keys and the first block of a secret. -/
def derive (secret : Secret) : Cipher.Aes.Schedule × Cipher.Block :=
  let cipherKey := Cipher.Sha256.digest (secret.key ++ secret.seedBytes)
  let opening := Cipher.Sha256.digest (secret.seedBytes ++ secret.key)
  let keys :=
    match Cipher.Block.ofBytes? cipherKey with
    | some [front, back] => Cipher.Aes.expand front back
    | _ => default
  let before :=
    match Cipher.Block.ofBytes? opening with
    | some (block :: _) => block
    | _ => default
  (keys, before)

/-- The sealed form of plain bytes. -/
def encrypt (secret : Secret) (plain : Bytes) : Bytes :=
  let (keys, before) := derive secret
  match Cipher.Block.ofBytes? (Cipher.pad plain) with
  | some blocks => (Cipher.chain (Cipher.Aes.encipher keys) before blocks).flatMap (·.toBytes)
  | none => []

/-- The reason given when bytes are not the sealed form of any text. -/
def badPadding : TransformError := .refused "Unpad Error"

/-- The plain bytes of a sealed form. -/
def decrypt : Transform := fun secret cipherText =>
  let (keys, before) := derive secret
  match Cipher.Block.ofBytes? cipherText with
  | none => .error badPadding
  | some blocks =>
    let plain := (Cipher.unchain (Cipher.Aes.decipher keys) before blocks).flatMap (·.toBytes)
    match Cipher.unpad? plain with
    | some bytes => .ok bytes
    | none => .error badPadding

end StandardCipher

end JarCensus.Decryption
