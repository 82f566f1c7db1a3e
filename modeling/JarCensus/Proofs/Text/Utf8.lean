import Mathlib.Data.List.Basic
import JarCensus.Text.Utf8

/-!
# Well-formed UTF-8

The bytes of a character are read back as that character, whatever comes behind them.
Strict reading therefore accepts exactly the bytes that spell characters.
-/

namespace JarCensus.Text.Utf8

/-- The code point of a character is none of a surrogate. -/
theorem toNat_lt_or_gt (c : Char) :
    c.toNat < 0xD800 ∨ 0xDFFF < c.toNat ∧ c.toNat < 0x110000 := c.valid

/-- Every other code point below the limit is that of a character. -/
theorem toNat_ofNat {value : Nat}
    (h : value < 0xD800 ∨ 0xDFFF < value ∧ value < 0x110000) :
    (Char.ofNat value).val.toNat = value := by
  rw [Char.ofNat, dif_pos h]
  rfl

/-- A byte is not below another one of no greater value. -/
theorem not_lt_of_toNat_le {bound byte : UInt8} (h : bound.toNat ≤ byte.toNat) : ¬byte < bound :=
  UInt8.not_lt.mpr (UInt8.le_iff_toNat_le.mpr h)

/-- Continuation bytes are those from `0x80` to `0xBF`. -/
theorem isTail_iff {byte : UInt8} :
    isTail byte = true ↔ 0x80 ≤ byte.toNat ∧ byte.toNat ≤ 0xBF := by
  simp [isTail, UInt8.le_iff_toNat_le]

/-- Which bytes follow which lead bytes, by their values. -/
theorem mayFollow_iff {lead second : UInt8} : mayFollow lead second = true ↔
    (0xC2 ≤ lead.toNat ∧ lead.toNat ≤ 0xF4) ∧ (0x80 ≤ second.toNat ∧ second.toNat ≤ 0xBF) ∧
      (lead.toNat = 0xE0 → 0xA0 ≤ second.toNat) ∧ (lead.toNat = 0xED → second.toNat ≤ 0x9F) ∧
      (lead.toNat = 0xF0 → 0x90 ≤ second.toNat) ∧ (lead.toNat = 0xF4 → second.toNat ≤ 0x8F) := by
  simp only [mayFollow, UInt8.lt_iff_toNat_lt, beq_iff_eq, ← UInt8.toNat_inj, UInt8.reduceToNat]
  split_ifs <;>
    simp [isTail_iff, UInt8.le_iff_toNat_le] <;>
    omega

/-! ### The bytes of one character -/

/-- A character of ASCII is written as one byte. -/
theorem encodeChar_ofNat {lead : UInt8} (hlead : lead.toNat < 0x80) :
    String.utf8EncodeChar (Char.ofNat lead.toNat) = [lead] := by
  have hvalue : (Char.ofNat lead.toNat).val.toNat = lead.toNat := toNat_ofNat (by omega)
  simp only [String.utf8EncodeChar, hvalue]
  rw [if_pos (by omega), UInt8.ofNat_toNat]

/-- A character of ASCII is written as the byte of its code point. -/
theorem encodeChar_of_lt {c : Char} (hascii : c.toNat < 0x80) :
    String.utf8EncodeChar c = [UInt8.ofNat c.toNat] := by
  unfold String.utf8EncodeChar
  exact if_pos (Nat.le_of_lt_succ hascii)

/-- Every other character starts with a byte that is none of ASCII. -/
theorem le_of_encodeChar {c : Char} {byte : UInt8} {more : Bytes} (hwide : 0x80 ≤ c.toNat)
    (hbytes : String.utf8EncodeChar c = byte :: more) : 0x80 ≤ byte.toNat := by
  unfold String.utf8EncodeChar at hbytes
  have hvalue := toNat_lt_or_gt c
  rw [show c.val.toNat = c.toNat from rfl] at hbytes
  dsimp only at hbytes
  split_ifs at hbytes <;> obtain ⟨rfl, -⟩ := List.cons.inj hbytes <;>
    simp only [UInt8.toNat_ofNat'] <;> omega

/-- The character of a two-byte sequence is written as these two bytes. -/
theorem encodeChar_scalar_two {lead second : UInt8} (hlead : lead.toNat < 0xE0)
    (hsecond : mayFollow lead second = true) :
    String.utf8EncodeChar (scalar (lead.toNat % 32) [second]) = [lead, second] := by
  have hbounds := mayFollow_iff.mp hsecond
  have hvalue : (scalar (lead.toNat % 32) [second]).val.toNat =
      64 * (lead.toNat % 32) + second.toNat % 64 := by
    simp only [scalar, List.foldl_cons, List.foldl_nil]
    exact toNat_ofNat (by omega)
  simp only [String.utf8EncodeChar, hvalue]
  rw [if_neg (by omega), if_pos (by omega)]
  simp only [List.cons.injEq, and_true, ← UInt8.toNat_inj, UInt8.toNat_ofNat']
  omega

/-- The character of a three-byte sequence is written as these three bytes. -/
theorem encodeChar_scalar_three {lead second third : UInt8}
    (hlead : 0xE0 ≤ lead.toNat ∧ lead.toNat < 0xF0)
    (hsecond : mayFollow lead second = true) (hthird : isTail third = true) :
    String.utf8EncodeChar (scalar (lead.toNat % 16) [second, third]) = [lead, second, third] := by
  have hbounds := mayFollow_iff.mp hsecond
  have hlast := isTail_iff.mp hthird
  have hvalue : (scalar (lead.toNat % 16) [second, third]).val.toNat =
      64 * (64 * (lead.toNat % 16) + second.toNat % 64) + third.toNat % 64 := by
    simp only [scalar, List.foldl_cons, List.foldl_nil]
    exact toNat_ofNat (by omega)
  simp only [String.utf8EncodeChar, hvalue]
  rw [if_neg (by omega), if_neg (by omega), if_pos (by omega)]
  simp only [List.cons.injEq, and_true, ← UInt8.toNat_inj, UInt8.toNat_ofNat']
  omega

/-- The character of a four-byte sequence is written as these four bytes. -/
theorem encodeChar_scalar_four {lead second third fourth : UInt8} (hlead : 0xF0 ≤ lead.toNat)
    (hsecond : mayFollow lead second = true) (hthird : isTail third = true)
    (hfourth : isTail fourth = true) :
    String.utf8EncodeChar (scalar (lead.toNat % 8) [second, third, fourth]) =
      [lead, second, third, fourth] := by
  have hbounds := mayFollow_iff.mp hsecond
  have hmiddle := isTail_iff.mp hthird
  have hlast := isTail_iff.mp hfourth
  have hvalue : (scalar (lead.toNat % 8) [second, third, fourth]).val.toNat =
      64 * (64 * (64 * (lead.toNat % 8) + second.toNat % 64) + third.toNat % 64) +
        fourth.toNat % 64 := by
    simp only [scalar, List.foldl_cons, List.foldl_nil]
    exact toNat_ofNat (by omega)
  simp only [String.utf8EncodeChar, hvalue]
  rw [if_neg (by omega), if_neg (by omega), if_neg (by omega)]
  simp only [List.cons.injEq, and_true, ← UInt8.toNat_inj, UInt8.toNat_ofNat']
  omega

/-! ### Reading one character -/

/-- A byte of ASCII is a character of its own. -/
theorem pieces_one {lead : UInt8} (hlead : lead.toNat < 0x80) (rest : Bytes) :
    pieces (lead :: rest) = some (Char.ofNat lead.toNat) :: pieces rest := by
  rw [pieces.eq_def]
  exact if_pos (UInt8.lt_iff_toNat_lt.mpr hlead)

/-- A lead byte below `0xE0` and its second byte are one character. -/
theorem pieces_two {lead second : UInt8} (hlead : lead.toNat < 0xE0)
    (hsecond : mayFollow lead second = true) (rest : Bytes) :
    pieces (lead :: second :: rest) =
      some (scalar (lead.toNat % 32) [second]) :: pieces rest := by
  have hbounds := mayFollow_iff.mp hsecond
  have hlong : ¬lead < 0x80 := not_lt_of_toNat_le (show 0x80 ≤ lead.toNat by omega)
  have htwo : lead < 0xE0 := UInt8.lt_iff_toNat_lt.mpr hlead
  rw [pieces.eq_def]
  simp only [hlong, hsecond, htwo, if_false, if_true, Bool.not_true, Bool.false_eq_true]

/-- A lead byte from `0xE0` on, its second byte and a continuation byte are one character. -/
theorem pieces_three {lead second third : UInt8} (hlead : 0xE0 ≤ lead.toNat ∧ lead.toNat < 0xF0)
    (hsecond : mayFollow lead second = true) (hthird : isTail third = true) (rest : Bytes) :
    pieces (lead :: second :: third :: rest) =
      some (scalar (lead.toNat % 16) [second, third]) :: pieces rest := by
  have hlong : ¬lead < 0x80 := not_lt_of_toNat_le (show 0x80 ≤ lead.toNat by omega)
  have htwo : ¬lead < 0xE0 := not_lt_of_toNat_le (show 0xE0 ≤ lead.toNat by omega)
  have hthree : lead < 0xF0 := UInt8.lt_iff_toNat_lt.mpr hlead.2
  rw [pieces.eq_def]
  simp only [hlong, hsecond, htwo, hthird, hthree, if_false, if_true, Bool.not_true,
    Bool.false_eq_true]

/-- A lead byte from `0xF0` on, its second byte and two continuation bytes are one character. -/
theorem pieces_four {lead second third fourth : UInt8} (hlead : 0xF0 ≤ lead.toNat)
    (hsecond : mayFollow lead second = true) (hthird : isTail third = true)
    (hfourth : isTail fourth = true) (rest : Bytes) :
    pieces (lead :: second :: third :: fourth :: rest) =
      some (scalar (lead.toNat % 8) [second, third, fourth]) :: pieces rest := by
  have hlong : ¬lead < 0x80 := not_lt_of_toNat_le (show 0x80 ≤ lead.toNat by omega)
  have htwo : ¬lead < 0xE0 := not_lt_of_toNat_le (show 0xE0 ≤ lead.toNat by omega)
  have hthree : ¬lead < 0xF0 := not_lt_of_toNat_le hlead
  rw [pieces.eq_def]
  simp only [hlong, hsecond, htwo, hthird, hthree, hfourth, if_false, Bool.not_true,
    Bool.false_eq_true]

/-- The bytes of a character in front are read as the character. -/
theorem pieces_encodeChar_append (c : Char) (rest : Bytes) :
    pieces (String.utf8EncodeChar c ++ rest) = some c :: pieces rest := by
  have hscalar : ∀ value, value = c.toNat → Char.ofNat value = c := by
    rintro _ rfl
    exact c.ofNat_toNat
  have hvalue := toNat_lt_or_gt c
  unfold String.utf8EncodeChar
  rw [show c.val.toNat = c.toNat from rfl]
  generalize c.toNat = value at *
  dsimp only
  -- In each length the conditions of the step, and the value it reads, are bounds on the value.
  split_ifs with hone htwo hthree <;>
    simp only [List.cons_append, List.nil_append]
  · rw [pieces_one, hscalar] <;> rw [UInt8.toNat_ofNat'] <;> omega
  · rw [pieces_two, scalar, hscalar] <;>
      simp only [List.foldl_cons, List.foldl_nil, mayFollow_iff, UInt8.toNat_ofNat'] <;>
      omega
  · rw [pieces_three, scalar, hscalar] <;>
      simp only [List.foldl_cons, List.foldl_nil, mayFollow_iff, isTail_iff,
        UInt8.toNat_ofNat'] <;>
      omega
  · rw [pieces_four, scalar, hscalar] <;>
      simp only [List.foldl_cons, List.foldl_nil, mayFollow_iff, isTail_iff,
        UInt8.toNat_ofNat'] <;>
      omega

/-- Bytes whose first stretch is read as a character start with the bytes of that character. -/
theorem exists_encodeChar_append {bytes : Bytes} {c : Char} {others : List (Option Char)}
    (h : pieces bytes = some c :: others) :
    ∃ rest, bytes = String.utf8EncodeChar c ++ rest ∧ pieces rest = others := by
  revert h
  -- One case for each length of a sequence; the others start with an ill-formed stretch.
  fun_cases pieces bytes with
  | case2 lead rest hone =>
    intro h
    obtain ⟨rfl, rfl⟩ := by simpa using h
    have hlead : lead.toNat < 0x80 := UInt8.lt_iff_toNat_lt.mp hone
    refine ⟨rest, ?_, rfl⟩
    rw [encodeChar_ofNat hlead]
    rfl
  | case5 lead hone second rest hsecond htwo =>
    intro h
    obtain ⟨rfl, rfl⟩ := by simpa using h
    have hlead : lead.toNat < 0xE0 := UInt8.lt_iff_toNat_lt.mp htwo
    refine ⟨rest, ?_, rfl⟩
    rw [encodeChar_scalar_two hlead (by simpa using hsecond)]
    rfl
  | case8 lead hone second hsecond htwo third rest hthird hthree =>
    intro h
    obtain ⟨rfl, rfl⟩ := by simpa using h
    have hlead : 0xE0 ≤ lead.toNat ∧ lead.toNat < 0xF0 :=
      ⟨UInt8.le_iff_toNat_le.mp (UInt8.not_lt.mp htwo), UInt8.lt_iff_toNat_lt.mp hthree⟩
    refine ⟨rest, ?_, rfl⟩
    rw [encodeChar_scalar_three hlead (by simpa using hsecond) (by simpa using hthird)]
    rfl
  | case11 lead hone second hsecond htwo third hthird hthree fourth rest hfourth =>
    intro h
    obtain ⟨rfl, rfl⟩ := by simpa using h
    have hlead : 0xF0 ≤ lead.toNat := UInt8.le_iff_toNat_le.mp (UInt8.not_lt.mp hthree)
    refine ⟨rest, ?_, rfl⟩
    rw [encodeChar_scalar_four hlead (by simpa using hsecond) (by simpa using hthird)
      (by simpa using hfourth)]
    rfl
  | _ => simp

/-! ### Reading text -/

/-- Bytes are read strictly when no stretch of them is ill-formed. -/
theorem decode?_eq_some_iff_pieces {bytes : Bytes} {chars : List Char} :
    decode? bytes = some chars ↔ pieces bytes = chars.map some := by
  unfold decode?
  generalize pieces bytes = found
  induction found generalizing chars with
  | nil => cases chars <;> simp
  | cons piece found ih =>
    cases piece with
    | none => cases chars <;> simp
    | some c => cases chars <;> simp [List.mapM_cons, Option.bind_eq_some_iff, ih, and_comm]

/-- Only the empty byte string has no stretch. -/
theorem pieces_eq_nil_iff {bytes : Bytes} : pieces bytes = [] ↔ bytes = [] := by
  fun_cases pieces bytes <;> simp

/-- The bytes of a character come in front of those of the text behind it. -/
theorem encode_cons (c : Char) (rest : List Char) :
    encode (c :: rest) = String.utf8EncodeChar c ++ encode rest := rfl

/-- The stretches of bytes are the characters of a text exactly when the bytes are those of the
text. -/
theorem pieces_eq_map_some_iff {bytes : Bytes} {chars : List Char} :
    pieces bytes = chars.map some ↔ bytes = encode chars := by
  induction chars generalizing bytes with
  | nil =>
    rw [List.map_nil, pieces_eq_nil_iff]
    rfl
  | cons c chars ih =>
    rw [List.map_cons, encode_cons]
    constructor
    · intro h
      obtain ⟨rest, rfl, hrest⟩ := exists_encodeChar_append h
      rw [ih.mp hrest]
    · rintro rfl
      rw [pieces_encodeChar_append, ih.mpr rfl]

/-- Strict reading accepts exactly the bytes of texts. -/
theorem decode?_eq_some_iff {bytes : Bytes} {chars : List Char} :
    decode? bytes = some chars ↔ bytes = encode chars := by
  rw [decode?_eq_some_iff_pieces, pieces_eq_map_some_iff]

end JarCensus.Text.Utf8
