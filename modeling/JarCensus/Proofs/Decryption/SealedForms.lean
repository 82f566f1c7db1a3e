import Mathlib.Order.Bounds.Defs
import JarCensus.Proofs.Decryption.Key

/-!
# Which bytes are sealed forms

Under one secret, plain bytes and sealed forms correspond one to one: bytes open exactly
when they are the sealed form of what they open to. All other bytes are refused, because
they are not whole blocks, or because the opened blocks do not end in padding.
-/

namespace JarCensus.Decryption.StandardCipher

variable {secret : Secret} {sealed plain : Bytes} {blocks : List Cipher.Block}

/-- The bytes that blocks open to, with whatever stands in the place of the padding. -/
def openedBytes (secret : Secret) (blocks : List Cipher.Block) : Bytes :=
  (Cipher.unchain (Cipher.Aes.decipher (derive secret).1) (derive secret).2 blocks).flatMap
    (·.toBytes)

/-- Opened bytes have the length of whole blocks. -/
theorem dvd_length_openedBytes (secret : Secret) (blocks : List Cipher.Block) :
    16 ∣ (openedBytes secret blocks).length := by
  rw [openedBytes, Cipher.Block.length_flatMap_toBytes]
  exact Nat.dvd_mul_right 16 _

/-- Opening gives bytes exactly when whole blocks open to these bytes with padding behind them. -/
theorem decrypt_eq_ok_iff_paddedTo : decrypt secret sealed = .ok plain ↔
    ∃ blocks : List Cipher.Block, sealed = blocks.flatMap (·.toBytes) ∧
      Cipher.PaddedTo plain (openedBytes secret blocks) := by
  simp only [← Cipher.Block.ofBytes?_eq_some_iff, ← Cipher.unpad?_eq_some_iff]
  cases hfound : Cipher.Block.ofBytes? sealed with
  | none => simp [decrypt, hfound]
  | some blocks =>
    cases hunpad : Cipher.unpad? (openedBytes secret blocks)
    all_goals
      rw [openedBytes] at hunpad
      simp [decrypt, hfound, hunpad, openedBytes]

/-- Opening fails in one way only, whatever is wrong with the bytes. -/
theorem decrypt_eq_badPadding_iff : decrypt secret sealed = .error badPadding ↔
    ∀ plain, decrypt secret sealed ≠ .ok plain := by
  have hfault : ∀ cause, decrypt secret sealed = .error cause → cause = badPadding := by
    intro cause hcause
    simp only [decrypt] at hcause
    split at hcause
    · exact (Except.error.inj hcause).symm
    · split at hcause
      · cases hcause
      · exact (Except.error.inj hcause).symm
  cases hdecrypt : decrypt secret sealed with
  | ok plain => simp
  | error cause => simp [hfault cause hdecrypt]

/-- Blocks that open to the padded form of plain bytes are the sealed form of these. -/
theorem encrypt_of_openedBytes (hopened : openedBytes secret blocks = Cipher.pad plain) :
    encrypt secret plain = blocks.flatMap (·.toBytes) := by
  have hinverse := Cipher.Aes.encipher_decipher (derive secret).1
  rw [encrypt_eq hopened, Cipher.chain_unchain hinverse]

/-- Bytes open exactly when they are the sealed form of what they open to. -/
theorem decrypt_eq_ok_iff_eq_encrypt :
    decrypt secret sealed = .ok plain ↔ sealed = encrypt secret plain := by
  constructor
  · intro hopens
    obtain ⟨blocks, rfl, hpadded⟩ := decrypt_eq_ok_iff_paddedTo.mp hopens
    rw [Cipher.paddedTo_iff (dvd_length_openedBytes secret blocks)] at hpadded
    exact (encrypt_of_openedBytes hpadded).symm
  · rintro rfl
    exact decrypt_encrypt secret plain

/-- Bytes are refused exactly when there are none, when they are not whole blocks, or when the
blocks open to bytes that do not end in padding. -/
theorem decrypt_eq_badPadding_iff_reason : decrypt secret sealed = .error badPadding ↔
    sealed = [] ∨ ¬16 ∣ sealed.length ∨
      ∃ blocks : List Cipher.Block, sealed = blocks.flatMap (·.toBytes) ∧
        ∀ front, ¬Cipher.PaddedTo front (openedBytes secret blocks) := by
  rw [decrypt_eq_badPadding_iff]
  constructor
  · intro hfails
    by_cases hwhole : 16 ∣ sealed.length
    · obtain ⟨count, hcount⟩ := hwhole
      obtain ⟨blocks, -, hblocks⟩ := Cipher.Block.exists_flatMap_toBytes_eq hcount
      refine .inr (.inr ⟨blocks, hblocks.symm, fun front hpadded => ?_⟩)
      exact hfails front (decrypt_eq_ok_iff_paddedTo.mpr ⟨blocks, hblocks.symm, hpadded⟩)
    · exact .inr (.inl hwhole)
  · intro hreason plain hopens
    have hsealed := decrypt_eq_ok_iff_eq_encrypt.mp hopens
    rcases hreason with hempty | hrest | ⟨blocks, hblocks, hunpadded⟩
    · exact encrypt_ne_nil secret plain (hsealed.symm.trans hempty)
    · refine hrest ?_
      rw [hsealed, length_encrypt]
      exact Nat.dvd_mul_right 16 _
    · obtain ⟨others, hothers, hpadded⟩ := decrypt_eq_ok_iff_paddedTo.mp hopens
      have hsame : some others = some blocks := by
        rw [← Cipher.Block.ofBytes?_eq_some_iff.mpr hothers,
          Cipher.Block.ofBytes?_eq_some_iff.mpr hblocks]
      obtain rfl := Option.some.inj hsame
      exact hunpadded plain hpadded

/-- Different plain bytes have different sealed forms. -/
theorem encrypt_injective (secret : Secret) : Function.Injective (encrypt secret) := by
  intro plain other hsame
  have hopens := decrypt_encrypt secret plain
  rw [hsame, decrypt_encrypt] at hopens
  exact (Except.ok.inj hopens).symm

/-- A sealed form has the least length of whole blocks that is greater than that of the plain
bytes. -/
theorem isLeast_length_encrypt (secret : Secret) (plain : Bytes) :
    IsLeast {length | 16 ∣ length ∧ plain.length < length} (encrypt secret plain).length := by
  rw [length_encrypt]
  refine ⟨⟨Nat.dvd_mul_right 16 _, by omega⟩, ?_⟩
  rintro length ⟨⟨count, rfl⟩, hgreater⟩
  omega

/-- How plain bytes and sealed forms under a secret correspond. -/
structure Correspondence (secret : Secret) : Prop where
  /-- Bytes open exactly when they are the sealed form of what they open to. -/
  opened : ∀ sealed plain, decrypt secret sealed = .ok plain ↔ sealed = encrypt secret plain
  /-- Bytes that are no sealed form are refused. -/
  refused : ∀ sealed, (∀ plain, sealed ≠ encrypt secret plain) →
    decrypt secret sealed = .error badPadding
  /-- Bytes are refused exactly when there are none, when they are not whole blocks, or when the
  blocks open to bytes that do not end in padding. -/
  reasons : ∀ sealed, decrypt secret sealed = .error badPadding ↔
    sealed = [] ∨ ¬16 ∣ sealed.length ∨
      ∃ blocks : List Cipher.Block, sealed = blocks.flatMap (·.toBytes) ∧
        ∀ front, ¬Cipher.PaddedTo front (openedBytes secret blocks)
  /-- Different plain bytes have different sealed forms. -/
  injective : Function.Injective (encrypt secret)
  /-- A sealed form has the least length of whole blocks that is greater than that of the plain
  bytes. -/
  length : ∀ plain : Bytes,
    IsLeast {length | 16 ∣ length ∧ plain.length < length} (encrypt secret plain).length

/-- The standard cipher makes plain bytes and sealed forms correspond one to one. -/
theorem correspondence (secret : Secret) : Correspondence secret where
  opened := fun _ _ => decrypt_eq_ok_iff_eq_encrypt
  refused := by
    intro sealed hforeign
    refine decrypt_eq_badPadding_iff.mpr fun plain hopens => ?_
    exact hforeign plain (decrypt_eq_ok_iff_eq_encrypt.mp hopens)
  reasons := fun _ => decrypt_eq_badPadding_iff_reason
  injective := encrypt_injective secret
  length := isLeast_length_encrypt secret

end JarCensus.Decryption.StandardCipher
