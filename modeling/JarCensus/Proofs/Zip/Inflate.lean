import JarCensus.Proofs.Zip.Packing

/-!
# Stored blocks are opened

Data all of whose blocks are stored is opened to the contents of these blocks. Blocks start and
end with whole bytes, so no bits of one are left over for the next one.
-/

namespace JarCensus.Zip.Inflate

section Bits

variable {begun count left value : Nat} {after : Bits} {rest : Bytes}

/-- A number that begins with all bits left of a byte goes on with the next bytes. -/
theorem number_add (hbegun : begun < 2 ^ left)
    (hrest : number count ⟨0, 0, rest⟩ = .ok (value, after)) :
    number (left + count) ⟨begun, left, rest⟩ = .ok (begun + 2 ^ left * value, after) := by
  induction left generalizing begun with
  | zero =>
    obtain rfl : begun = 0 := by simpa using hbegun
    simpa using hrest
  | succ left ih =>
    have hhigh : begun / 2 < 2 ^ left := by
      rw [Nat.pow_succ'] at hbegun
      exact Nat.div_lt_of_lt_mul hbegun
    have hsum : begun % 2 + 2 * (begun / 2 + 2 ^ left * value) =
        begun + 2 ^ (left + 1) * value := by
      rw [Nat.mul_add, ← Nat.add_assoc, Nat.mod_add_div, ← Nat.mul_assoc, Nat.pow_succ']
    have hbit : bit ⟨begun, left + 1, rest⟩ = .ok (begun % 2, ⟨begun / 2, left, rest⟩) := rfl
    rw [Nat.succ_add, number, bind_of_ok hbit, bind_of_ok (ih hhigh), hsum]
    rfl

/-- Whole bytes are a number whose lowest byte comes first. -/
theorem number_bytes (bytes rest : Bytes) :
    number (8 * bytes.length) ⟨0, 0, bytes ++ rest⟩ =
      .ok (Bytes.littleEndian bytes, ⟨0, 0, rest⟩) := by
  induction bytes with
  | nil => rfl
  | cons byte bytes ih =>
    have hcount : 8 * (byte :: bytes).length = (7 + 8 * bytes.length) + 1 := by
      rw [List.length_cons]
      omega
    have hbyte := byte.toNat_lt
    have hhigh : byte.toNat / 2 < 2 ^ 7 := by omega
    have hsum : byte.toNat % 2 + 2 * (byte.toNat / 2 + 2 ^ 7 * Bytes.littleEndian bytes) =
        Bytes.littleEndian (byte :: bytes) := by
      rw [Bytes.littleEndian]
      omega
    have hbit : bit ⟨0, 0, byte :: (bytes ++ rest)⟩ =
        .ok (byte.toNat % 2, ⟨byte.toNat / 2, 7, bytes ++ rest⟩) := rfl
    rw [hcount, number, List.cons_append, bind_of_ok hbit, bind_of_ok (number_add hhigh ih), hsum]
    rfl

/-- A number of sixteen bits is read back from whole bytes. -/
theorem number_number (hvalue : value < 65536) (rest : Bytes) :
    number 16 ⟨0, 0, Packing.number 2 value ++ rest⟩ = .ok (value, ⟨0, 0, rest⟩) := by
  have hnumber := number_bytes (Packing.number 2 value) rest
  rwa [Packing.length_number, Packing.littleEndian_number hvalue] at hnumber

end Bits

section Blocks

variable {content last : Bytes} {front : List Bytes} {symbols fuel : Nat}

/-- The content of a stored block is appended to what there is. -/
theorem storedBlock_eq (hlength : content.length < 65536) (begun left : Nat)
    (out : Array UInt8) (rest : Bytes) :
    storedBlock out ⟨begun, left, Packing.number 2 content.length ++
        (Packing.number 2 (0xFFFF - content.length) ++ (content ++ rest))⟩ =
      .ok (out ++ content.toArray, ⟨0, 0, rest⟩) := by
  have hsum : content.length + (0xFFFF - content.length) = 0xFFFF := by omega
  have hsplit : Bytes.split? content.length (content ++ rest) = some (content, rest) :=
    Bytes.split?_eq_some_iff.mpr ⟨rfl, rfl⟩
  have halign : ∀ bytes, alignToByte ⟨begun, left, bytes⟩ = .ok ((), ⟨0, 0, bytes⟩) := fun _ => rfl
  have hget : (get : Reader Bits) ⟨0, 0, content ++ rest⟩ =
      .ok (⟨0, 0, content ++ rest⟩, ⟨0, 0, content ++ rest⟩) := rfl
  rw [storedBlock, bind_of_ok (halign _), bind_of_ok (number_number hlength _),
    bind_of_ok (number_number (by omega) _), if_neg (not_not.mpr hsum)]
  refine (bind_of_ok hget).trans ?_
  simp only [hsplit]
  rfl

/-- A stored block ends the data if it is marked, and else hands over to the next block. -/
theorem blocks_storedBlock (hlength : content.length < 65536) (out : Array UInt8) (rest : Bytes) :
    blocks symbols (fuel + 1) out ⟨0, 0, Packing.storedBlock 1 content ++ rest⟩ =
        .ok (out ++ content.toArray, ⟨0, 0, rest⟩) ∧
      blocks symbols (fuel + 1) out ⟨0, 0, Packing.storedBlock 0 content ++ rest⟩ =
        blocks symbols fuel (out ++ content.toArray) ⟨0, 0, rest⟩ := by
  have hblock : ∀ mark, Packing.storedBlock mark content ++ rest =
      UInt8.ofNat mark :: (Packing.number 2 content.length ++
        (Packing.number 2 (0xFFFF - content.length) ++ (content ++ rest))) := by
    intro mark
    simp only [Packing.storedBlock, List.cons_append, List.append_assoc]
  have hbit : ∀ left bytes, bit ⟨0, left + 1, bytes⟩ = .ok (0, ⟨0, left, bytes⟩) := by simp [bit]
  have hkind : ∀ bytes, number 2 ⟨0, 7, bytes⟩ = .ok (0, ⟨0, 5, bytes⟩) := by
    intro bytes
    have hhigh : number 1 ⟨0, 6, bytes⟩ = .ok (0, ⟨0, 5, bytes⟩) := bind_of_ok (hbit 5 bytes)
    rw [number, bind_of_ok (hbit 6 bytes), bind_of_ok hhigh]
    rfl
  have hstored := storedBlock_eq hlength 0 5 out rest
  have hmarked : ∀ bytes, bit ⟨0, 0, UInt8.ofNat 1 :: bytes⟩ = .ok (1, ⟨0, 7, bytes⟩) :=
    fun _ => rfl
  have hunmarked : ∀ bytes, bit ⟨0, 0, UInt8.ofNat 0 :: bytes⟩ = .ok (0, ⟨0, 7, bytes⟩) :=
    fun _ => rfl
  constructor
  · rw [hblock, blocks, bind_of_ok (hmarked _), bind_of_ok (hkind _)]
    exact bind_of_ok hstored
  · rw [hblock, blocks, bind_of_ok (hunmarked _), bind_of_ok (hkind _)]
    exact bind_of_ok hstored

/-- Stored blocks are opened one after the other. -/
theorem blocks_storedBlocks (hfront : ∀ content ∈ front, content.length < 65536)
    (hlast : last.length < 65536) (hfuel : front.length < fuel) (out : Array UInt8) :
    blocks symbols fuel out ⟨0, 0, Packing.storedBlocks last front⟩ =
      .ok (out ++ (front.flatten ++ last).toArray, ⟨0, 0, []⟩) := by
  induction front generalizing fuel out with
  | nil =>
    obtain ⟨fuel, rfl⟩ := Nat.exists_eq_succ_of_ne_zero (Nat.ne_zero_of_lt hfuel)
    have hblock : blocks symbols (fuel + 1) out ⟨0, 0, Packing.storedBlock 1 last ++ []⟩ =
        .ok (out ++ last.toArray, ⟨0, 0, []⟩) := (blocks_storedBlock hlast out []).1
    rwa [List.append_nil] at hblock
  | cons first front ih =>
    obtain ⟨hfirst, hfront⟩ := List.forall_mem_cons.mp hfront
    obtain ⟨fuel, rfl⟩ := Nat.exists_eq_succ_of_ne_zero (Nat.ne_zero_of_lt hfuel)
    rw [Packing.storedBlocks, (blocks_storedBlock hfirst out _).2,
      ih hfront (Nat.lt_of_succ_lt_succ hfuel)]
    simp

/-- Stored blocks take more bytes than there are blocks. -/
theorem length_lt_storedBlocks (last : Bytes) (front : List Bytes) :
    front.length < (Packing.storedBlocks last front).length := by
  induction front with
  | nil => simp [Packing.storedBlocks, Packing.storedBlock]
  | cons first front ih =>
    simp only [Packing.storedBlocks, Packing.storedBlock, List.length_append, List.length_cons]
    omega

/-- Data all of whose blocks are stored is opened to the contents of the blocks. -/
theorem inflate_storedBlocks (hfront : ∀ content ∈ front, content.length < 65536)
    (hlast : last.length < 65536) :
    inflate (Packing.storedBlocks last front) = .ok (front.flatten ++ last) := by
  have hcount := length_lt_storedBlocks last front
  have hfuel : front.length < 8 * (Packing.storedBlocks last front).length + 1 := by omega
  unfold inflate
  simp only [StateT.run, blocks_storedBlocks hfront hlast hfuel]
  exact congrArg Except.ok (by simp)

end Blocks

end JarCensus.Zip.Inflate
