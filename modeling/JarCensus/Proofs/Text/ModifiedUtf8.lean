import JarCensus.Proofs.Text.Utf16
import JarCensus.Text.ModifiedUtf8

/-!
# Reading modified UTF-8

The bytes of code units are read back as these units. Where the bytes of characters are
already well-formed UTF-8 without four-byte sequences, the two ways of reading them agree,
so the text of the bytes of code units is always what the units spell.
-/

namespace JarCensus.Text.ModifiedUtf8

/-- What holds of the bytes of all values holds of every byte. -/
theorem forall_byte {P : UInt8 → Prop} (h : ∀ value < 256, P (UInt8.ofNat value))
    (byte : UInt8) : P byte := by
  have hbyte := h byte.toNat byte.toNat_lt
  rwa [UInt8.ofNat_toNat] at hbyte

/-- Continuation bytes are those from `0x80` to `0xBF`. -/
theorem continues_iff {byte : UInt8} :
    continues byte = true ↔ 0x80 ≤ byte.toNat ∧ byte.toNat < 0xC0 := by
  revert byte
  apply forall_byte
  decide +kernel

/-- Two-byte sequences start with the bytes from `0xC0` to `0xDF`. -/
theorem leads_two_iff {byte : UInt8} :
    (byte &&& 0xE0 == 0xC0) = true ↔ 0xC0 ≤ byte.toNat ∧ byte.toNat < 0xE0 := by
  revert byte
  apply forall_byte
  decide +kernel

/-- Three-byte sequences start with the bytes from `0xE0` to `0xEF`. -/
theorem leads_three_iff {byte : UInt8} :
    (byte &&& 0xF0 == 0xE0) = true ↔ 0xE0 ≤ byte.toNat ∧ byte.toNat < 0xF0 := by
  revert byte
  apply forall_byte
  decide +kernel

/-- A byte of ASCII is a unit of its own. -/
theorem units_one {lead : UInt8} (hlead : lead.toNat < 0x80) (rest : Bytes) :
    units (lead :: rest) = lead.toUInt16 :: units rest := by
  rw [units.eq_def]
  exact if_pos (UInt8.lt_iff_toNat_lt.mpr hlead)

/-- A byte from `0xC0` to `0xDF` and a continuation byte are one unit. -/
theorem units_two {lead second : UInt8} (hlead : 0xC0 ≤ lead.toNat ∧ lead.toNat < 0xE0)
    (hsecond : 0x80 ≤ second.toNat ∧ second.toNat < 0xC0) (rest : Bytes) :
    units (lead :: second :: rest) = unit₂ lead second :: units rest := by
  have hlong : ¬lead < 0x80 := Utf8.not_lt_of_toNat_le (show 0x80 ≤ lead.toNat by omega)
  rw [units.eq_def]
  exact (if_neg hlong).trans ((if_pos (leads_two_iff.mpr hlead)).trans
    (if_pos (continues_iff.mpr hsecond)))

/-- A byte from `0xE0` to `0xEF` and two continuation bytes are one unit. -/
theorem units_three {lead second third : UInt8} (hlead : 0xE0 ≤ lead.toNat ∧ lead.toNat < 0xF0)
    (hsecond : 0x80 ≤ second.toNat ∧ second.toNat < 0xC0)
    (hthird : 0x80 ≤ third.toNat ∧ third.toNat < 0xC0) (rest : Bytes) :
    units (lead :: second :: third :: rest) = unit₃ lead second third :: units rest := by
  have hlong : ¬lead < 0x80 := Utf8.not_lt_of_toNat_le (show 0x80 ≤ lead.toNat by omega)
  have hthree : ¬(lead &&& 0xE0 == 0xC0) = true := by
    rw [leads_two_iff]
    omega
  have htails : (continues second && continues third) = true := by
    rw [Bool.and_eq_true, continues_iff, continues_iff]
    exact ⟨hsecond, hthird⟩
  rw [units.eq_def]
  exact (if_neg hlong).trans ((if_neg hthree).trans ((if_pos (leads_three_iff.mpr hlead)).trans
    (if_pos htails)))

/-- The bytes of a unit in front are read as the unit. -/
theorem units_encodeUnit_append (unit : UInt16) (rest : Bytes) :
    units (encodeUnit unit ++ rest) = unit :: units rest := by
  have hunit := unit.toNat_lt
  unfold encodeUnit
  dsimp only
  split_ifs with hone htwo
  · have hvalue : (UInt8.ofNat unit.toNat).toUInt16 = unit := by
      rw [← UInt16.toNat_inj, UInt8.toNat_toUInt16, UInt8.toNat_ofNat']
      omega
    rw [List.singleton_append, units_one, hvalue]
    rw [UInt8.toNat_ofNat']
    omega
  · have hvalue : unit₂ (UInt8.ofNat (0xC0 + unit.toNat / 64))
        (UInt8.ofNat (0x80 + unit.toNat % 64)) = unit := by
      rw [← UInt16.toNat_inj, unit₂, UInt16.toNat_ofNat', UInt8.toNat_ofNat', UInt8.toNat_ofNat']
      omega
    rw [List.cons_append, List.singleton_append, units_two, hvalue] <;>
      rw [UInt8.toNat_ofNat'] <;>
      omega
  · have hvalue : unit₃ (UInt8.ofNat (0xE0 + unit.toNat / 4096))
        (UInt8.ofNat (0x80 + unit.toNat / 64 % 64)) (UInt8.ofNat (0x80 + unit.toNat % 64)) =
          unit := by
      rw [← UInt16.toNat_inj, unit₃, UInt16.toNat_ofNat', UInt8.toNat_ofNat', UInt8.toNat_ofNat',
        UInt8.toNat_ofNat']
      omega
    rw [List.cons_append, List.cons_append, List.singleton_append, units_three, hvalue] <;>
      rw [UInt8.toNat_ofNat'] <;>
      omega

/-- The bytes of units are read as the units. -/
theorem units_encode (sequence : List UInt16) : units (encode sequence) = sequence := by
  induction sequence with
  | nil => rfl
  | cons unit sequence ih =>
    have hfront : encode (unit :: sequence) = encodeUnit unit ++ encode sequence := rfl
    rw [hfront, units_encodeUnit_append, ih]

/-- The bytes of a unit never lead a four-byte sequence. -/
theorem lt_of_mem_encode {sequence : List UInt16} {byte : UInt8}
    (h : byte ∈ encode sequence) : byte < 0xF0 := by
  obtain ⟨unit, -, hbyte⟩ := List.mem_flatMap.mp h
  have hunit := unit.toNat_lt
  unfold encodeUnit at hbyte
  rw [UInt8.lt_iff_toNat_lt]
  dsimp only at hbyte
  split_ifs at hbyte with hone htwo <;>
    simp only [List.mem_cons, List.not_mem_nil, or_false, ← UInt8.toNat_inj,
      UInt8.toNat_ofNat', UInt8.reduceToNat] at hbyte ⊢ <;>
    omega

/-- A character without the first byte of a four-byte sequence lies in the range of one unit. -/
theorem toNat_lt_of_encodeChar {c : Char} (h : ∀ byte ∈ String.utf8EncodeChar c, byte < 0xF0) :
    c.toNat < 0x10000 := by
  by_contra hlarge
  have hvalue := Utf8.toNat_lt_or_gt c
  have hbytes : UInt8.ofNat (c.toNat / 262144 % 8 + 240) ∈ String.utf8EncodeChar c := by
    unfold String.utf8EncodeChar
    rw [show c.val.toNat = c.toNat from rfl]
    dsimp only
    rw [if_neg (by omega), if_neg (by omega), if_neg (by omega)]
    exact List.mem_cons_self
  have hlead : (UInt8.ofNat (c.toNat / 262144 % 8 + 240)).toNat < 240 :=
    UInt8.lt_iff_toNat_lt.mp (h _ hbytes)
  rw [UInt8.toNat_ofNat'] at hlead
  omega

/-- The bytes of a character in the range of one unit are those of the unit, NUL excepted. -/
theorem encodeUnit_ofNat {c : Char} (hnul : c.toNat ≠ 0) (hc : c.toNat < 0x10000) :
    encodeUnit (UInt16.ofNat c.toNat) = String.utf8EncodeChar c := by
  have hunit : (UInt16.ofNat c.toNat).toNat = c.toNat := UInt16.toNat_ofNat_of_lt' hc
  unfold encodeUnit String.utf8EncodeChar
  rw [hunit, show c.val.toNat = c.toNat from rfl]
  dsimp only
  by_cases hone : c.toNat < 0x80
  · rw [if_pos ⟨hnul, hone⟩, if_pos (by omega)]
  have hascii : ¬c.toNat ≤ 127 := by omega
  rw [if_neg (mt And.right hone), if_neg hascii]
  by_cases htwo : c.toNat < 0x800
  · rw [if_pos htwo, if_pos (by omega)]
    simp only [List.cons.injEq, and_true, ← UInt8.toNat_inj, UInt8.toNat_ofNat']
    omega
  · rw [if_neg htwo, if_neg (by omega), if_pos (by omega)]
    simp only [List.cons.injEq, and_true, ← UInt8.toNat_inj, UInt8.toNat_ofNat']
    omega

/-- The bytes of a character in the range of one unit are read as this unit. -/
theorem units_encodeChar_append {c : Char} (hc : c.toNat < 0x10000) (rest : Bytes) :
    units (String.utf8EncodeChar c ++ rest) = Utf16.encodeChar c ++ units rest := by
  have hone : Utf16.encodeChar c = [UInt16.ofNat c.toNat] := if_pos hc
  rw [hone, List.singleton_append]
  by_cases hnul : c.toNat = 0
  · obtain rfl : c = '\x00' := by rw [← c.ofNat_toNat, hnul]
    exact units_one (by decide) rest
  · rw [← encodeUnit_ofNat hnul hc, units_encodeUnit_append]

/-- The units of well-formed UTF-8 without four-byte sequences are those of its text. -/
theorem units_utf8Encode {chars : List Char} (h : ∀ byte ∈ Utf8.encode chars, byte < 0xF0) :
    units (Utf8.encode chars) = Utf16.encode chars := by
  induction chars with
  | nil => rfl
  | cons c chars ih =>
    rw [Utf8.encode_cons] at h ⊢
    have hc := toNat_lt_of_encodeChar fun byte hbyte => h byte (List.mem_append_left _ hbyte)
    have hrest := ih fun byte hbyte => h byte (List.mem_append_right _ hbyte)
    rw [units_encodeChar_append hc, hrest]
    rfl

/-- On well-formed UTF-8 without four-byte sequences the code units spell the text. -/
theorem decode_units_of_decode? {bytes : Bytes} {chars : List Char}
    (hread : Utf8.decode? bytes = some chars) (hshort : ∀ byte ∈ bytes, byte < 0xF0) :
    Utf16.decode (units bytes) = chars := by
  rw [Utf8.decode?_eq_some_iff] at hread
  subst hread
  rw [units_utf8Encode hshort, Utf16.decode_encode]

/-- The text of the bytes of code units is what the units spell. -/
theorem decode_encode (sequence : List UInt16) :
    decode (encode sequence) = Utf16.decode sequence := by
  unfold decode
  cases hread : Utf8.decode? (encode sequence) with
  | none =>
    dsimp only
    rw [units_encode]
  | some chars =>
    -- Bytes of units that are well-formed UTF-8 have no four-byte sequence.
    have hspelled := decode_units_of_decode? hread fun _ => lt_of_mem_encode
    rw [units_encode] at hspelled
    exact hspelled.symm

example : decode [0x61, 0xC0, 0x80, 0xED, 0xA0, 0xBD, 0xED, 0xB8, 0x80, 0xED, 0xA0, 0xBD] =
    ['a', '\x00', Char.ofNat 0x1F600, replacement] := by
  decide +kernel

end JarCensus.Text.ModifiedUtf8
