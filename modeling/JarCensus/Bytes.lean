/-!
# Byte strings and fixed-width numbers

A byte string is a list of bytes. This file gives the big-endian words of class
files, the little-endian words of zip archives, and the count of bytes that a
request asks for beyond the end of a string.
-/

namespace JarCensus

/-- A finite string of bytes. -/
abbrev Bytes := List UInt8

namespace Bytes

/-- The number of bytes that a request for `count` bytes lacks at the end of the string. -/
def missing : Nat → Bytes → Nat
  | 0, _ => 0
  | count + 1, [] => count + 1
  | count + 1, _ :: rest => missing count rest

/-- A request lacks exactly the difference between its size and what is left. -/
theorem missing_eq (count : Nat) (bytes : Bytes) :
    missing count bytes = count - bytes.length := by
  induction count generalizing bytes with
  | zero => simp [missing]
  | succ count ih =>
    cases bytes with
    | nil => simp [missing]
    | cons byte rest => simp [missing, ih]

/-- Nothing is missing exactly when the request fits. -/
theorem missing_eq_zero_iff (count : Nat) (bytes : Bytes) :
    missing count bytes = 0 ↔ count ≤ bytes.length := by
  rw [missing_eq]
  omega

/-- The first `count` bytes and the rest, when there are that many. -/
def split? (count : Nat) (bytes : Bytes) : Option (Bytes × Bytes) :=
  if missing count bytes = 0 then some (bytes.take count, bytes.drop count) else none

/-- A byte string splits exactly where it has enough bytes, and the parts make it up. -/
theorem split?_eq_some_iff {count : Nat} {bytes front back : Bytes} :
    split? count bytes = some (front, back) ↔
      bytes = front ++ back ∧ front.length = count := by
  unfold split?
  constructor
  · intro h
    split at h
    · rename_i hfits
      rw [missing_eq_zero_iff] at hfits
      obtain ⟨rfl, rfl⟩ := by simpa using h
      exact ⟨(List.take_append_drop count bytes).symm, by simp; omega⟩
    · simp at h
  · rintro ⟨rfl, rfl⟩
    have hfits : missing front.length (front ++ back) = 0 := by
      rw [missing_eq_zero_iff]
      simp
    simp [hfits]

/-- The number whose base-256 digits, least significant first, are the bytes. -/
def littleEndian : Bytes → Nat
  | [] => 0
  | byte :: rest => byte.toNat + 256 * littleEndian rest

/-- The end of the numbers of 64 bits. -/
def end64 : Nat := 18446744073709551616

/-- The 16-bit word of two bytes, most significant first. -/
def word16 (high low : UInt8) : UInt16 :=
  UInt16.ofNat (256 * high.toNat + low.toNat)

/-- The 32-bit word of four bytes, most significant first. -/
def word32 (a b c d : UInt8) : UInt32 :=
  UInt32.ofNat (256 * (256 * (256 * a.toNat + b.toNat) + c.toNat) + d.toNat)

/-- The two bytes of a 16-bit word, most significant first. -/
def ofWord16 (word : UInt16) : Bytes :=
  [UInt8.ofNat (word.toNat / 256), UInt8.ofNat word.toNat]

/-- The four bytes of a 32-bit word, most significant first. -/
def ofWord32 (word : UInt32) : Bytes :=
  [UInt8.ofNat (word.toNat / 16777216), UInt8.ofNat (word.toNat / 65536),
    UInt8.ofNat (word.toNat / 256), UInt8.ofNat word.toNat]

/-- The value of a 16-bit word read from two bytes. -/
theorem word16_toNat (high low : UInt8) :
    (word16 high low).toNat = 256 * high.toNat + low.toNat := by
  have hhigh := high.toNat_lt
  have hlow := low.toNat_lt
  simp only [word16, UInt16.toNat_ofNat']
  omega

/-- The value of a 32-bit word read from four bytes. -/
theorem word32_toNat (a b c d : UInt8) :
    (word32 a b c d).toNat =
      256 * (256 * (256 * a.toNat + b.toNat) + c.toNat) + d.toNat := by
  have ha := a.toNat_lt
  have hb := b.toNat_lt
  have hc := c.toNat_lt
  have hd := d.toNat_lt
  simp only [word32, UInt32.toNat_ofNat']
  omega

/-- Writing a 16-bit word and reading it gives it back. -/
theorem word16_ofWord16 (word : UInt16) :
    word16 (UInt8.ofNat (word.toNat / 256)) (UInt8.ofNat word.toNat) = word := by
  apply UInt16.toNat_inj.mp
  have hword := word.toNat_lt
  rw [word16_toNat, UInt8.toNat_ofNat', UInt8.toNat_ofNat']
  omega

/-- Reading a 16-bit word and writing it gives its bytes back. -/
theorem ofWord16_word16 (high low : UInt8) : ofWord16 (word16 high low) = [high, low] := by
  have hhigh := high.toNat_lt
  have hlow := low.toNat_lt
  simp only [ofWord16, word16_toNat, List.cons.injEq, and_true]
  constructor <;> apply UInt8.toNat_inj.mp <;> rw [UInt8.toNat_ofNat'] <;> omega

/-- The byte strings of even length are those of 16-bit words. -/
theorem length_eq_two_mul_iff {bytes : Bytes} {count : Nat} : bytes.length = 2 * count ↔
    ∃ words : List UInt16, words.length = count ∧ bytes = words.flatMap ofWord16 := by
  induction count generalizing bytes with
  | zero => simp
  | succ count ih =>
    constructor
    · intro h
      match bytes, h with
      | high :: low :: rest, h =>
        obtain ⟨words, hlength, hrest⟩ := ih.mp (show rest.length = 2 * count by simp at h; omega)
        exact ⟨word16 high low :: words, by simp [hlength], by simp [ofWord16_word16, hrest]⟩
    · rintro ⟨words, hlength, rfl⟩
      cases words with
      | nil => simp at hlength
      | cons word words =>
        have hrest := ih.mpr ⟨words, by simpa using hlength, rfl⟩
        simp [ofWord16, hrest]
        omega

/-- Writing a 32-bit word and reading it gives it back. -/
theorem word32_ofWord32 (word : UInt32) :
    word32 (UInt8.ofNat (word.toNat / 16777216)) (UInt8.ofNat (word.toNat / 65536))
      (UInt8.ofNat (word.toNat / 256)) (UInt8.ofNat word.toNat) = word := by
  apply UInt32.toNat_inj.mp
  have hword := word.toNat_lt
  simp only [word32_toNat, UInt8.toNat_ofNat']
  omega

/-- Reading a 32-bit word and writing it gives its bytes back. -/
theorem ofWord32_word32 (a b c d : UInt8) : ofWord32 (word32 a b c d) = [a, b, c, d] := by
  have ha := a.toNat_lt
  have hb := b.toNat_lt
  have hc := c.toNat_lt
  have hd := d.toNat_lt
  simp only [ofWord32, word32_toNat, List.cons.injEq, and_true]
  refine ⟨?_, ?_, ?_, ?_⟩ <;> apply UInt8.toNat_inj.mp <;> rw [UInt8.toNat_ofNat'] <;> omega

end Bytes

end JarCensus
