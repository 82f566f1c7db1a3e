import Mathlib.Data.List.Basic
import JarCensus.Cipher.Chaining

/-!
# Padding and cutting into blocks

Padded bytes have the length of whole blocks, so they can be cut into blocks without a
rest, and the padding tells how long it is, so it can be taken off again. Bytes that end in
padding and have the length of whole blocks are the padded form of what is before it.
-/

namespace JarCensus.Cipher

namespace Block

/-- A block has sixteen bytes. -/
theorem length_toBytes (block : Block) : block.toBytes.length = 16 := rfl

/-- Blocks have sixteen bytes each. -/
theorem length_flatMap_toBytes (blocks : List Block) :
    (blocks.flatMap toBytes).length = 16 * blocks.length := by
  induction blocks with
  | nil => rfl
  | cons block rest ih =>
    rw [List.flatMap_cons, List.length_append, length_toBytes, ih, List.length_cons]
    omega

/-- The bytes of blocks make up the blocks. -/
theorem ofBytes?_flatMap_toBytes (blocks : List Block) :
    ofBytes? (blocks.flatMap toBytes) = some blocks := by
  induction blocks with
  | nil => rfl
  | cons block rest ih =>
    change (ofBytes? (rest.flatMap toBytes)).map (block :: ·) = some (block :: rest)
    rw [ih, Option.map_some]

/-- Sixteen bytes are those of a block. -/
theorem exists_toBytes_eq {bytes : Bytes} (hlength : bytes.length = 16) :
    ∃ block : Block, block.toBytes = bytes := by
  match bytes, hlength with
  | [a, b, c, d, e, f, g, h, i, j, k, l, m, n, o, p], _ =>
    exact ⟨⟨⟨a, b, c, d⟩, ⟨e, f, g, h⟩, ⟨i, j, k, l⟩, ⟨m, n, o, p⟩⟩, rfl⟩

/-- Bytes of the length of whole blocks are those of blocks. -/
theorem exists_flatMap_toBytes_eq {count : Nat} {bytes : Bytes}
    (hlength : bytes.length = 16 * count) :
    ∃ blocks : List Block, blocks.length = count ∧ blocks.flatMap toBytes = bytes := by
  induction count generalizing bytes with
  | zero => exact ⟨[], rfl, (List.length_eq_zero_iff.mp hlength).symm⟩
  | succ count ih =>
    have hfront : (bytes.take 16).length = 16 := by
      rw [List.length_take]
      omega
    have hrest : (bytes.drop 16).length = 16 * count := by
      rw [List.length_drop]
      omega
    obtain ⟨block, hblock⟩ := exists_toBytes_eq hfront
    obtain ⟨blocks, hcount, hblocks⟩ := ih hrest
    refine ⟨block :: blocks, by rw [List.length_cons, hcount], ?_⟩
    rw [List.flatMap_cons, hblock, hblocks, List.take_append_drop]

/-- Bytes are cut into the blocks that they are made up of. -/
theorem ofBytes?_eq_some_iff {bytes : Bytes} {blocks : List Block} :
    ofBytes? bytes = some blocks ↔ bytes = blocks.flatMap toBytes := by
  constructor
  · intro hblocks
    induction bytes using ofBytes?.induct generalizing blocks with
    | case1 =>
      obtain rfl : [] = blocks := by simpa [ofBytes?] using hblocks
      rfl
    | case2 a b c d e f g h i j k l m n o p rest ih =>
      obtain ⟨others, hothers, rfl⟩ := Option.map_eq_some_iff.mp hblocks
      rw [List.flatMap_cons, ← ih hothers]
      rfl
    | case3 bytes hempty hlong =>
      rw [ofBytes?.eq_3 bytes hempty hlong] at hblocks
      cases hblocks
  · rintro rfl
    exact ofBytes?_flatMap_toBytes blocks

/-- Bytes are cut into blocks exactly when they have the length of whole blocks. -/
theorem ofBytes?_eq_none_iff {bytes : Bytes} : ofBytes? bytes = none ↔ ¬16 ∣ bytes.length := by
  constructor
  · rintro hnone ⟨count, hcount⟩
    obtain ⟨blocks, -, hblocks⟩ := exists_flatMap_toBytes_eq hcount
    rw [ofBytes?_eq_some_iff.mpr hblocks.symm] at hnone
    cases hnone
  · intro hrest
    cases hfound : ofBytes? bytes with
    | none => rfl
    | some blocks =>
      refine absurd ?_ hrest
      rw [ofBytes?_eq_some_iff.mp hfound, length_flatMap_toBytes]
      exact Nat.dvd_mul_right 16 blocks.length

end Block

/-- Padding fills up the last block, or adds a whole one when there is nothing to fill. -/
theorem length_pad (bytes : Bytes) : (pad bytes).length = 16 * (bytes.length / 16 + 1) := by
  rw [pad, List.length_append, List.length_replicate]
  omega

/-- Whether bytes are others with padding behind them: one to sixteen bytes that each hold their
own number. -/
def PaddedTo (front bytes : Bytes) : Prop :=
  ∃ count, 1 ≤ count ∧ count ≤ 16 ∧ bytes = front ++ List.replicate count (UInt8.ofNat count)

/-- Padding is taken off exactly where it is whole. -/
theorem unpad?_eq_some_iff {bytes front : Bytes} :
    unpad? bytes = some front ↔ PaddedTo front bytes := by
  constructor
  · intro hunpad
    unfold unpad? at hunpad
    split at hunpad
    · cases hunpad
    · rename_i last hlast
      dsimp only at hunpad
      split at hunpad
      · rename_i hpadding
        obtain ⟨hleast, hmost, hbytes⟩ := hpadding
        cases hunpad
        refine ⟨last.toNat, hleast, hmost, ?_⟩
        rwa [UInt8.ofNat_toNat]
      · cases hunpad
  · rintro ⟨count, hleast, hmost, rfl⟩
    have hcount : (UInt8.ofNat count).toNat = count := by
      rw [UInt8.toNat_ofNat']
      omega
    have hlast : (front ++ List.replicate count (UInt8.ofNat count)).getLast? =
        some (UInt8.ofNat count) := by
      rw [List.getLast?_append, List.getLast?_replicate, if_neg (by omega), Option.some_or]
    simp only [unpad?, hlast, hcount, List.length_append, List.length_replicate,
      Nat.add_sub_cancel, List.take_left]
    exact if_pos ⟨hleast, hmost, trivial⟩

/-- Bytes of the length of whole blocks that end in padding are the padded form of what stands
before it: the length leaves no choice of how much padding there is. -/
theorem paddedTo_iff {front bytes : Bytes} (hwhole : 16 ∣ bytes.length) :
    PaddedTo front bytes ↔ bytes = pad front := by
  constructor
  · rintro ⟨count, hleast, hmost, rfl⟩
    rw [List.length_append, List.length_replicate] at hwhole
    have hcount : 16 - front.length % 16 = count := by omega
    rw [pad, hcount]
  · rintro rfl
    exact ⟨16 - front.length % 16, by omega, by omega, rfl⟩

/-- The padding of bytes is found and taken off. -/
theorem unpad?_pad (bytes : Bytes) : unpad? (pad bytes) = some bytes := by
  have hwhole : 16 ∣ (pad bytes).length := by
    rw [length_pad]
    exact Nat.dvd_mul_right 16 _
  exact unpad?_eq_some_iff.mpr ((paddedTo_iff hwhole).mpr rfl)

/-- A chain has as many blocks as it was made from. -/
theorem length_chain (encipher : Block → Block) (before : Block) (plain : List Block) :
    (chain encipher before plain).length = plain.length := by
  induction plain generalizing before with
  | nil => rfl
  | cons block rest ih => rw [chain, List.length_cons, List.length_cons, ih]

/-- Sealing what was opened from a chain gives back the chain. -/
theorem chain_unchain {encipher decipher : Block → Block}
    (inverse : ∀ x, encipher (decipher x) = x) (before : Block) (blocks : List Block) :
    chain encipher before (unchain decipher before blocks) = blocks := by
  induction blocks generalizing before with
  | nil => rfl
  | cons block rest ih => simp [chain, unchain, inverse, ih, Block.add_add_self]

end JarCensus.Cipher
