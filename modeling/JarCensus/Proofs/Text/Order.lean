import JarCensus.Proofs.Text.Utf8

/-!
# The order of texts is that of their bytes

UTF-8 keeps the order of characters: of two different characters the lesser one is spelled
by bytes that come first, and neither spelling starts the other. Texts are therefore in the
same order as their bytes.
-/

namespace JarCensus.Text.Utf8

/-- What comes behind byte strings of one length does not matter once they differ. -/
theorem append_lt_append {front other : Bytes} (hlength : front.length = other.length)
    (hless : front < other) (back more : Bytes) : front ++ back < other ++ more := by
  induction front generalizing other with
  | nil =>
    cases other with
    | nil => cases hless
    | cons byte rest => simp at hlength
  | cons byte front ih =>
    cases other with
    | nil => simp at hlength
    | cons second other =>
      rw [List.cons_append, List.cons_append, List.cons_lt_cons_iff]
      rcases List.cons_lt_cons_iff.mp hless with hbyte | ⟨rfl, hrest⟩
      · exact .inl hbyte
      · exact .inr ⟨rfl, ih (by simpa using hlength) hrest⟩

/-- Byte strings that start with different bytes are in the order of these. -/
theorem ofNat_cons_append_lt {a b : Nat} (hless : a < b) (hbound : b < 256)
    (front other back more : Bytes) :
    UInt8.ofNat a :: front ++ back < UInt8.ofNat b :: other ++ more := by
  refine List.cons_lt_cons_iff.mpr (.inl (UInt8.lt_iff_toNat_lt.mpr ?_))
  rw [UInt8.toNat_ofNat', UInt8.toNat_ofNat']
  omega

/-- One byte string comes before another when it has the lesser first byte, or when it has the
same one and the rest comes before. -/
theorem cons_lt_cons_iff_toNat {first second : UInt8} {front other : Bytes} :
    first :: front < second :: other ↔
      first.toNat < second.toNat ∨ first.toNat = second.toNat ∧ front < other := by
  rw [List.cons_lt_cons_iff, UInt8.lt_iff_toNat_lt, UInt8.toNat_inj]

/-- The lesser of two characters has the lesser bytes, whatever comes behind them. Spellings of
different length differ in their first byte already. -/
theorem encodeChar_append_lt {c d : Char} (hless : c < d) (back more : Bytes) :
    String.utf8EncodeChar c ++ back < String.utf8EncodeChar d ++ more := by
  have hvalue : c.val.toNat < d.val.toNat := hless
  have hlimit : d.val.toNat < 1114112 := by
    rcases d.valid with hd | ⟨-, hd⟩ <;> omega
  unfold String.utf8EncodeChar
  generalize c.val.toNat = v at *
  generalize d.val.toNat = w at *
  dsimp only
  by_cases hone : w ≤ 127
  · rw [if_pos hone, if_pos (by omega)]
    exact ofNat_cons_append_lt hvalue (by omega) [] [] back more
  rw [if_neg hone]
  by_cases htwo : w ≤ 2047
  · rw [if_pos htwo]
    split_ifs
    · exact ofNat_cons_append_lt (by omega) (by omega) [] _ back more
    · refine append_lt_append (by simp) ?_ back more
      simp only [cons_lt_cons_iff_toNat, UInt8.toNat_ofNat', List.lt_irrefl, and_false, or_false]
      omega
    · omega
    · omega
  rw [if_neg htwo]
  by_cases hthree : w ≤ 65535
  · rw [if_pos hthree]
    split_ifs
    · exact ofNat_cons_append_lt (by omega) (by omega) [] _ back more
    · exact ofNat_cons_append_lt (by omega) (by omega) [_] _ back more
    · refine append_lt_append (by simp) ?_ back more
      simp only [cons_lt_cons_iff_toNat, UInt8.toNat_ofNat', List.lt_irrefl, and_false, or_false]
      omega
    · omega
  rw [if_neg hthree]
  split_ifs
  · exact ofNat_cons_append_lt (by omega) (by omega) [] _ back more
  · exact ofNat_cons_append_lt (by omega) (by omega) [_] _ back more
  · exact ofNat_cons_append_lt (by omega) (by omega) [_, _] _ back more
  · refine append_lt_append (by simp) ?_ back more
    simp (disch := omega) only [cons_lt_cons_iff_toNat, UInt8.toNat_ofNat', Nat.mod_eq_of_lt,
      List.lt_irrefl, and_false, or_false]
    omega

/-- The lesser of two texts has the lesser bytes. -/
theorem encode_lt_encode {first second : List Char} (hless : first < second) :
    encode first < encode second := by
  induction first generalizing second with
  | nil =>
    cases second with
    | nil => cases hless
    | cons d rest =>
      rw [encode_cons]
      cases hbytes : String.utf8EncodeChar d with
      | nil => exact absurd hbytes String.utf8EncodeChar_ne_nil
      | cons byte more => exact List.nil_lt_cons byte _
  | cons c first ih =>
    cases second with
    | nil => cases hless
    | cons d second =>
      rw [encode_cons, encode_cons]
      rcases List.cons_lt_cons_iff.mp hless with hchar | ⟨rfl, hrest⟩
      · exact encodeChar_append_lt hchar _ _
      · exact List.append_left_lt (ih hrest)

/-- Texts are in the order of their bytes. -/
theorem encode_lt_encode_iff {first second : String} :
    encode first.toList < encode second.toList ↔ first < second := by
  refine ⟨fun hbytes => ?_, encode_lt_encode⟩
  by_contra hnot
  have hle : second ≤ first := String.not_lt.mp hnot
  by_cases hsame : second = first
  · exact List.lt_irrefl _ (hsame ▸ hbytes)
  · have hmore : second < first := Std.lt_of_le_of_ne hle hsame
    exact List.lt_asymm hbytes (encode_lt_encode hmore)

end JarCensus.Text.Utf8
