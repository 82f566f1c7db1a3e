import JarCensus.Cipher.Aes

/-!
# Cipher block chaining and padding

Each plain block is added to the sealed block before it and then enciphered. The
plain text is padded to whole blocks by bytes that each hold their own count, one to
sixteen of them, so every text has exactly one padded form.
-/

namespace JarCensus.Cipher

/-- The bytes followed by their padding. -/
def pad (bytes : Bytes) : Bytes :=
  let count := 16 - bytes.length % 16
  bytes ++ List.replicate count (UInt8.ofNat count)

/-- The bytes without their padding, when the padding is well formed. -/
def unpad? (bytes : Bytes) : Option Bytes :=
  match bytes.getLast? with
  | none => none
  | some last =>
    let count := last.toNat
    let front := bytes.take (bytes.length - count)
    if 1 ≤ count ∧ count ≤ 16 ∧ bytes = front ++ List.replicate count last then some front
    else none

/-- The blocks sealed in a chain that begins with the given block. -/
def chain (encipher : Block → Block) (before : Block) : List Block → List Block
  | [] => []
  | plain :: rest =>
    let cipher := encipher (plain.add before)
    cipher :: chain encipher cipher rest

/-- The blocks opened from a chain that begins with the given block. -/
def unchain (decipher : Block → Block) (before : Block) : List Block → List Block
  | [] => []
  | cipher :: rest => (decipher cipher).add before :: unchain decipher cipher rest

/-- Opening a chain gives back what was sealed in it. -/
theorem unchain_chain {encipher decipher : Block → Block}
    (inverse : ∀ x, decipher (encipher x) = x) (before : Block) (plain : List Block) :
    unchain decipher before (chain encipher before plain) = plain := by
  induction plain generalizing before with
  | nil => rfl
  | cons block rest ih => simp [chain, unchain, inverse, ih, Block.add_add_self]

end JarCensus.Cipher
