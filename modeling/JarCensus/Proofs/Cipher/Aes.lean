import JarCensus.Cipher.Aes
import Mathlib.Data.Finite.Prod

/-!
# Deciphering undoes enciphering

Each step of a round has an inverse, and deciphering takes the inverses in reverse
order. The step that needs an argument is the mixing of columns: doubling a byte is
additive, so mixing is linear, and mixing four times changes nothing. As there are
finitely many blocks, enciphering undoes deciphering as well.
-/

namespace JarCensus.Cipher

namespace Block

/-- There are finitely many blocks, since there are finitely many bytes. -/
instance finite : Finite Block := by
  have hbyte : Finite UInt8 :=
    Finite.of_injective UInt8.toFin fun _ _ hsame => UInt8.toFin_inj.mp hsame
  have hcolumn : Finite Column := by
    refine Finite.of_injective (fun x : Column => (x.a, x.b, x.c, x.d)) ?_
    rintro ⟨⟩ ⟨⟩ hsame
    simpa using hsame
  refine Finite.of_injective (fun x : Block => (x.first, x.second, x.third, x.fourth)) ?_
  rintro ⟨⟩ ⟨⟩ hsame
  simpa using hsame

/-- A function on columns that undoes another one undoes it on blocks. -/
theorem map_map_of_inverse {f g : Column → Column} (hinverse : ∀ x, g (f x) = x) (x : Block) :
    (x.map f).map g = x := by
  simp only [map, hinverse]

end Block

namespace Aes

section Sums

/-- Sums of bytes may be taken in any order. -/
theorem xor_left_comm (x y z : UInt8) : x ^^^ (y ^^^ z) = y ^^^ (x ^^^ z) := by
  rw [← UInt8.xor_assoc, UInt8.xor_comm x y, UInt8.xor_assoc]

/-- A byte that is added twice drops out of a sum. -/
theorem xor_xor_cancel_left (x y : UInt8) : x ^^^ (x ^^^ y) = y := by
  rw [← UInt8.xor_assoc, UInt8.xor_self, UInt8.zero_xor]

end Sums

/-- Twice a byte is the byte moved left, with `0x1B` added when a bit is carried out. -/
theorem double_eq (x : UInt8) :
    double x = (x <<< 1) ^^^ (if x.toBitVec.msb then 0x1B else 0) := by
  have hcarry : x < 0x80 ↔ x.toBitVec.msb = false := by
    rw [UInt8.lt_iff_toNat_lt, BitVec.msb_eq_decide]
    simp
  unfold double
  cases hmsb : x.toBitVec.msb with
  | false => simp [hcarry.mpr hmsb]
  | true => simp [hcarry, hmsb]

/-- Doubling is additive. -/
theorem double_xor (x y : UInt8) : double (x ^^^ y) = double x ^^^ double y := by
  have hcarry : ∀ carried carried' : Bool, (if carried ^^ carried' then 0x1B else 0 : UInt8) =
      (if carried then 0x1B else 0) ^^^ (if carried' then 0x1B else 0) := by decide
  rw [double_eq, double_eq, double_eq, UInt8.shiftLeft_xor, UInt8.toBitVec_xor, BitVec.msb_xor,
    hcarry]
  ac_rfl

/-- A row of the mixing matrix, which is the row above it moved by one place. -/
def row (a b c d : UInt8) : UInt8 := double a ^^^ triple b ^^^ c ^^^ d

/-- Mixing applies the row from each place on. -/
theorem mix_eq (x : Column) : mix x = ⟨row x.a x.b x.c x.d, row x.b x.c x.d x.a,
    row x.c x.d x.a x.b, row x.d x.a x.b x.c⟩ := by
  simp only [mix, row, Column.mk.injEq, true_and]
  refine ⟨?_, ?_, ?_⟩ <;> ac_rfl

/-- The row applied to a mixed column adds four times a byte and its opposite to the byte. -/
theorem row_row (a b c d : UInt8) :
    row (row a b c d) (row b c d a) (row c d a b) (row d a b c) =
      a ^^^ double (double (a ^^^ c)) := by
  simp only [row, triple, double_xor, UInt8.xor_assoc, UInt8.xor_comm, xor_left_comm,
    xor_xor_cancel_left]

/-- The column with four times each byte and its opposite added to both. -/
def spread (x : Column) : Column :=
  let even := double (double (x.a ^^^ x.c))
  let odd := double (double (x.b ^^^ x.d))
  ⟨x.a ^^^ even, x.b ^^^ odd, x.c ^^^ even, x.d ^^^ odd⟩

/-- Mixing twice is spreading. -/
theorem mix_mix (x : Column) : mix (mix x) = spread x := by
  simp only [mix_eq, row_row, spread, UInt8.xor_comm x.a x.c, UInt8.xor_comm x.b x.d]

/-- Spreading twice changes nothing. -/
theorem spread_spread (x : Column) : spread (spread x) = x := by
  simp only [spread, double_xor, UInt8.xor_comm, xor_left_comm, UInt8.xor_self, UInt8.xor_zero]

/-- Unmixing undoes mixing. -/
theorem unmix_mix (x : Column) : unmix (mix x) = x := by
  have hunmix : unmix (mix x) = mix (spread (mix x)) := rfl
  rw [hunmix, ← mix_mix, mix_mix, mix_mix, spread_spread]

/-- The bytes that stand for others stand, in their order, for all bytes in increasing order. -/
theorem map_unsubstitutes_substitutes :
    (substitutes.toList.map fun y => unsubstitutes.toList[y.toNat]?) =
      (List.range 256).map fun code => some (UInt8.ofNat code) := by
  decide +kernel

/-- Every byte comes back from the byte that stands for it. -/
theorem unsubstitute_substitute (x : UInt8) : unsubstitute (substitute x) = x := by
  have hentry := congrArg (·[x.toNat]?) map_unsubstitutes_substitutes
  simp only [List.getElem?_map, List.getElem?_range x.toNat_lt, Option.map_some,
    UInt8.ofNat_toNat, Option.map_eq_some_iff, Array.getElem?_toList] at hentry
  obtain ⟨y, hy, hx⟩ := hentry
  simp [substitute, unsubstitute, hy, hx]

/-- Every column comes back from the bytes that stand for its own. -/
theorem map_unsubstitute_substitute (x : Column) :
    (x.map substitute).map unsubstitute = x := by
  simp only [Column.map, unsubstitute_substitute]

/-- The inverse of a round undoes it. -/
theorem backward_forward (x key : Block) : backward (forward x key) key = x := by
  rw [backward, forward, Block.add_add_self, Block.map_map_of_inverse unmix_mix,
    unshiftRows_shiftRows, Block.map_map_of_inverse map_unsubstitute_substitute]

/-- The inverses of rounds in reverse order undo the rounds. -/
theorem foldl_backward_reverse (keys : List Block) (x : Block) :
    keys.reverse.foldl backward (keys.foldl forward x) = x := by
  induction keys generalizing x with
  | nil => rfl
  | cons key rest ih =>
    rw [List.foldl_cons, List.reverse_cons, List.foldl_append, ih]
    exact backward_forward x key

/-- Deciphering undoes enciphering under the same round keys. -/
theorem decipher_encipher (keys : Schedule) (x : Block) :
    decipher keys (encipher keys x) = x := by
  simp only [decipher, encipher, Block.add_add_self, unshiftRows_shiftRows,
    Block.map_map_of_inverse map_unsubstitute_substitute, foldl_backward_reverse]

/-- Enciphering undoes deciphering under the same round keys. What deciphering undoes takes no
two blocks to one, so it reaches every block. -/
theorem encipher_decipher (keys : Schedule) (x : Block) :
    encipher keys (decipher keys x) = x := by
  have hinverse : Function.LeftInverse (decipher keys) (encipher keys) := decipher_encipher keys
  have hreached : Function.Surjective (encipher keys) :=
    Finite.surjective_of_injective hinverse.injective
  exact hinverse.rightInverse_of_surjective hreached x

end Aes

end JarCensus.Cipher
