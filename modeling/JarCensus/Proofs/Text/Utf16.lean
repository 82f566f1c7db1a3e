import JarCensus.Proofs.Text.Utf8
import JarCensus.Text.Utf16

/-!
# What UTF-16 code units spell

Every sequence of code units spells one text: it splits from the front into the units of
characters and unpaired surrogates, each of which counts as U+FFFD.
-/

namespace JarCensus.Text.Utf16

/-- High surrogates are the units from `D800` to `DBFF`. -/
theorem isHighSurrogate_iff {unit : UInt16} :
    isHighSurrogate unit = true ↔ 0xD800 ≤ unit.toNat ∧ unit.toNat ≤ 0xDBFF := by
  simp [isHighSurrogate, UInt16.le_iff_toNat_le]

/-- Low surrogates are the units from `DC00` to `DFFF`. -/
theorem isLowSurrogate_iff {unit : UInt16} :
    isLowSurrogate unit = true ↔ 0xDC00 ≤ unit.toNat ∧ unit.toNat ≤ 0xDFFF := by
  simp [isLowSurrogate, UInt16.le_iff_toNat_le]

/-- Whether the first of the units is a low surrogate, or a high surrogate that no low surrogate
follows. -/
def Unpaired (unit : UInt16) (rest : List UInt16) : Prop :=
  isLowSurrogate unit = true ∨
    isHighSurrogate unit = true ∧ ∀ next ∈ rest.head?, ¬isLowSurrogate next = true

/-- The text that units spell: the characters whose units they are, with U+FFFD for each unpaired
surrogate. -/
inductive Spells : List UInt16 → List Char → Prop
  | nil : Spells [] []
  | char {rest : List UInt16} {chars : List Char} (c : Char) (hrest : Spells rest chars) :
      Spells (encodeChar c ++ rest) (c :: chars)
  | unpaired {unit : UInt16} {rest : List UInt16} {chars : List Char}
      (hunpaired : Unpaired unit rest) (hrest : Spells rest chars) :
      Spells (unit :: rest) (replacement :: chars)

/-- A unit that is no surrogate spells the character of its value. -/
theorem encodeChar_ofNat {unit : UInt16} (hhigh : ¬isHighSurrogate unit = true)
    (hlow : ¬isLowSurrogate unit = true) : encodeChar (Char.ofNat unit.toNat) = [unit] := by
  rw [isHighSurrogate_iff] at hhigh
  rw [isLowSurrogate_iff] at hlow
  have hunit := unit.toNat_lt
  have hvalue : (Char.ofNat unit.toNat).toNat = unit.toNat := Utf8.toNat_ofNat (by omega)
  simp only [encodeChar, hvalue]
  rw [if_pos (by omega), UInt16.ofNat_toNat]

/-- A surrogate pair spells its character. -/
theorem encodeChar_ofPair {high low : UInt16} (hhigh : isHighSurrogate high = true)
    (hlow : isLowSurrogate low = true) : encodeChar (ofPair high low) = [high, low] := by
  rw [isHighSurrogate_iff] at hhigh
  rw [isLowSurrogate_iff] at hlow
  have hvalue : (ofPair high low).toNat =
      0x10000 + 1024 * (high.toNat - 0xD800) + (low.toNat - 0xDC00) :=
    Utf8.toNat_ofNat (by omega)
  simp only [encodeChar, hvalue]
  rw [if_neg (by omega)]
  simp only [List.cons.injEq, and_true, ← UInt16.toNat_inj, UInt16.toNat_ofNat']
  omega

/-- A unit that is no surrogate is read as the character of its value. -/
theorem decode_cons {unit : UInt16} (hhigh : ¬isHighSurrogate unit = true)
    (hlow : ¬isLowSurrogate unit = true) (rest : List UInt16) :
    decode (unit :: rest) = Char.ofNat unit.toNat :: decode rest := by
  rw [decode.eq_def]
  exact (if_neg hhigh).trans (if_neg hlow)

/-- A surrogate pair is read as its character. -/
theorem decode_pair {high low : UInt16} (hhigh : isHighSurrogate high = true)
    (hlow : isLowSurrogate low = true) (rest : List UInt16) :
    decode (high :: low :: rest) = ofPair high low :: decode rest := by
  rw [decode.eq_def]
  exact (if_pos hhigh).trans (if_pos hlow)

/-- An unpaired surrogate is read as U+FFFD. -/
theorem decode_of_unpaired {unit : UInt16} {rest : List UInt16} (h : Unpaired unit rest) :
    decode (unit :: rest) = replacement :: decode rest := by
  rw [decode.eq_def]
  rcases h with hlow | ⟨hhigh, hnext⟩
  · have hhigh : ¬isHighSurrogate unit = true := by
      rw [isLowSurrogate_iff] at hlow
      rw [isHighSurrogate_iff]
      omega
    exact (if_neg hhigh).trans (if_pos hlow)
  · cases rest with
    | nil => exact if_pos hhigh
    | cons next rest =>
      have hlone : ¬isLowSurrogate next = true := hnext next rfl
      exact (if_pos hhigh).trans (if_neg hlone)

/-- A character is spelled by a unit that is no surrogate, or by a surrogate pair. -/
theorem encodeChar_cases (c : Char) :
    (∃ unit, encodeChar c = [unit] ∧ ¬isHighSurrogate unit = true ∧
        ¬isLowSurrogate unit = true ∧ Char.ofNat unit.toNat = c) ∨
      ∃ high low, encodeChar c = [high, low] ∧ isHighSurrogate high = true ∧
        isLowSurrogate low = true ∧ ofPair high low = c := by
  have hvalue := Utf8.toNat_lt_or_gt c
  unfold encodeChar
  by_cases hone : c.toNat < 0x10000
  · have hunit : (UInt16.ofNat c.toNat).toNat = c.toNat := UInt16.toNat_ofNat_of_lt' hone
    rw [if_pos hone]
    refine .inl ⟨_, rfl, ?_, ?_, by rw [hunit, Char.ofNat_toNat]⟩
    · rw [isHighSurrogate_iff, hunit]
      omega
    · rw [isLowSurrogate_iff, hunit]
      omega
  · rw [if_neg hone]
    refine .inr ⟨_, _, rfl, ?_, ?_, ?_⟩
    · rw [isHighSurrogate_iff, UInt16.toNat_ofNat']
      omega
    · rw [isLowSurrogate_iff, UInt16.toNat_ofNat']
      omega
    · rw [ofPair, UInt16.toNat_ofNat', UInt16.toNat_ofNat']
      have hpair : 0x10000 + 1024 * ((0xD800 + (c.toNat - 0x10000) / 0x400) % 2 ^ 16 - 0xD800) +
          ((0xDC00 + (c.toNat - 0x10000) % 0x400) % 2 ^ 16 - 0xDC00) = c.toNat := by omega
      rw [hpair, Char.ofNat_toNat]

/-- The units of a character in front are read as the character. -/
theorem decode_encodeChar_append (c : Char) (rest : List UInt16) :
    decode (encodeChar c ++ rest) = c :: decode rest := by
  obtain ⟨unit, hunits, hhigh, hlow, hc⟩ | ⟨high, low, hunits, hhigh, hlow, hc⟩ :=
    encodeChar_cases c
  · rw [hunits, List.singleton_append, decode_cons hhigh hlow, hc]
  · rw [hunits, List.cons_append, List.singleton_append, decode_pair hhigh hlow, hc]

/-- The units of a text are read as the text. -/
theorem decode_encode (chars : List Char) : decode (encode chars) = chars := by
  induction chars with
  | nil => rfl
  | cons c chars ih =>
    have hfront : encode (c :: chars) = encodeChar c ++ encode chars := rfl
    rw [hfront, decode_encodeChar_append, ih]

/-- Units spell what they are read as. -/
theorem spells_decode (units : List UInt16) : Spells units (decode units) := by
  fun_induction decode units with
  | case1 => exact .nil
  | case2 unit hhigh => exact .unpaired (.inr ⟨hhigh, by simp⟩) .nil
  | case3 unit hhigh next rest hlow ih =>
    have hpair := Spells.char (ofPair unit next) ih
    rwa [encodeChar_ofPair hhigh hlow] at hpair
  | case4 unit hhigh next rest hlow ih =>
    exact .unpaired (.inr ⟨hhigh, by simpa using hlow⟩) ih
  | case5 unit rest hhigh hlow ih => exact .unpaired (.inl hlow) ih
  | case6 unit rest hhigh hlow ih =>
    have hone := Spells.char (Char.ofNat unit.toNat) ih
    rwa [encodeChar_ofNat hhigh hlow] at hone

/-- Units spell nothing else. -/
theorem spells_iff {units : List UInt16} {chars : List Char} :
    Spells units chars ↔ decode units = chars := by
  constructor
  · intro h
    induction h with
    | nil => rfl
    | char c hrest ih => rw [decode_encodeChar_append, ih]
    | unpaired hunpaired hrest ih => rw [decode_of_unpaired hunpaired, ih]
  · rintro rfl
    exact spells_decode units

end JarCensus.Text.Utf16
