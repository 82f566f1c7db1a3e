import JarCensus.Decryption.Key
import JarCensus.Proofs.Cipher.Aes
import JarCensus.Proofs.Cipher.Chaining

/-!
# Opening what was sealed

The standard cipher opens under a secret what it sealed under the same secret. Sealed
forms have whole blocks and at least one of them, also that of no bytes.
-/

namespace JarCensus.Decryption.StandardCipher

/-- The sealed form of bytes is the chain made from the blocks of the padded bytes. -/
theorem encrypt_eq {secret : Secret} {plain : Bytes} {blocks : List Cipher.Block}
    (hblocks : blocks.flatMap (·.toBytes) = Cipher.pad plain) :
    encrypt secret plain = (Cipher.chain (Cipher.Aes.encipher (derive secret).1)
      (derive secret).2 blocks).flatMap (·.toBytes) := by
  simp only [encrypt, ← hblocks, Cipher.Block.ofBytes?_flatMap_toBytes]

/-- A sealed form fills up the last block of the bytes, or adds a whole one. -/
theorem length_encrypt (secret : Secret) (plain : Bytes) :
    (encrypt secret plain).length = 16 * (plain.length / 16 + 1) := by
  obtain ⟨blocks, hcount, hblocks⟩ :=
    Cipher.Block.exists_flatMap_toBytes_eq (Cipher.length_pad plain)
  rw [encrypt_eq hblocks, Cipher.Block.length_flatMap_toBytes, Cipher.length_chain, hcount]

/-- A sealed form is not empty. -/
theorem encrypt_ne_nil (secret : Secret) (plain : Bytes) : encrypt secret plain ≠ [] := by
  refine List.ne_nil_of_length_pos ?_
  rw [length_encrypt]
  omega

/-- A sealed form opens under its secret to the bytes that were sealed. -/
theorem decrypt_encrypt (secret : Secret) (plain : Bytes) :
    decrypt secret (encrypt secret plain) = .ok plain := by
  obtain ⟨blocks, -, hblocks⟩ := Cipher.Block.exists_flatMap_toBytes_eq (Cipher.length_pad plain)
  rw [encrypt_eq hblocks]
  simp only [decrypt, Cipher.Block.ofBytes?_flatMap_toBytes,
    Cipher.unchain_chain (Cipher.Aes.decipher_encipher (derive secret).1), hblocks,
    Cipher.unpad?_pad]

end JarCensus.Decryption.StandardCipher
