import Mathlib.Algebra.Group.Nat.Defs
import JarCensus.Zip.Crc32

/-!
# What the check value notices

No two registers become one by a shift: the bit that falls out comes back at the upper end, with
the polynomial. So a byte that is changed changes the check value.
-/

namespace JarCensus.Zip.Crc32

variable {first second : UInt32}

/-- A bit that falls out of the register brings the polynomial in. -/
theorem shift_succ (bits : Nat) (register : UInt32) :
    shift (bits + 1) register = shift bits (if register.toNat % 2 = 1 then
      register >>> 1 ^^^ 0xEDB88320 else register >>> 1) := by
  have hlow : (register &&& 1 = 1) ↔ register.toNat % 2 = 1 := by
    rw [← UInt32.toNat_inj, UInt32.toNat_and, UInt32.toNat_one, Nat.and_one_is_mod]
  simp only [shift, beq_iff_eq, hlow]

/-- A register is half as large after one bit, before the polynomial comes in. -/
theorem toNat_shiftRight_one (register : UInt32) :
    (register >>> 1).toNat = register.toNat / 2 := by
  rw [UInt32.toNat_shiftRight]
  exact Nat.shiftRight_eq_div_pow _ 1

/-- The polynomial reaches a bit further up than any register after one bit. -/
theorem shiftRight_xor_ne (first second : UInt32) :
    first >>> 1 ^^^ (0xEDB88320 : UInt32) ≠ second >>> 1 := by
  intro hsame
  have hpolynomial : first >>> 1 ^^^ second >>> 1 = 0xEDB88320 := by
    rw [← hsame, ← UInt32.xor_assoc, UInt32.xor_self, UInt32.zero_xor]
  have hsmall : ∀ register : UInt32, (register >>> 1).toNat < 2 ^ 31 := by
    intro register
    have hregister := register.toNat_lt
    rw [toNat_shiftRight_one]
    omega
  have hbelow := Nat.xor_lt_two_pow (hsmall first) (hsmall second)
  rw [← UInt32.toNat_xor, hpolynomial] at hbelow
  exact absurd hbelow (by decide)

/-- Registers that are the same after some bits were the same before. -/
theorem shift_inj {bits : Nat} : shift bits first = shift bits second ↔ first = second := by
  refine ⟨fun hsame => ?_, congrArg _⟩
  induction bits generalizing first second with
  | zero => exact hsame
  | succ bits ih =>
    rw [shift_succ, shift_succ] at hsame
    have hnext := ih hsame
    have hhalves : first >>> 1 = second >>> 1 → first.toNat % 2 = second.toNat % 2 →
        first = second := by
      intro hhigh hlow
      have hnumbers := congrArg UInt32.toNat hhigh
      rw [toNat_shiftRight_one, toNat_shiftRight_one] at hnumbers
      exact UInt32.toNat_inj.mp (by omega)
    split at hnext <;> split at hnext
    · exact hhalves ((UInt32.xor_left_inj _).mp hnext) (by omega)
    · exact absurd hnext (shiftRight_xor_ne _ _)
    · exact absurd hnext.symm (shiftRight_xor_ne _ _)
    · exact hhalves hnext (by omega)

/-- Registers that are the same after some bytes were the same before. -/
theorem foldl_step_inj {bytes : Bytes} :
    bytes.foldl step first = bytes.foldl step second ↔ first = second := by
  induction bytes generalizing first second with
  | nil => rfl
  | cons byte rest ih =>
    rw [List.foldl_cons, List.foldl_cons, ih, step, step, shift_inj, UInt32.xor_left_inj]

/-- One byte that is another makes another check value. -/
theorem checksum_append_cons_inj {front back : Bytes} {byte other : UInt8} :
    checksum (front ++ byte :: back) = checksum (front ++ other :: back) ↔ byte = other := by
  simp only [checksum, List.foldl_append, List.foldl_cons, UInt32.xor_left_inj, foldl_step_inj,
    step, shift_inj, UInt32.xor_right_inj, UInt8.toUInt32_inj]

/-- The check value of the nine digits, which is the usual one to compare. -/
example : checksum [0x31, 0x32, 0x33, 0x34, 0x35, 0x36, 0x37, 0x38, 0x39] = 0xCBF43926 := by
  decide +kernel

end JarCensus.Zip.Crc32
