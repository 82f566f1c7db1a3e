import JarCensus.Proofs.ClassFile.Nesting

/-!
# Checked reading of texts

The bytes of a text are read by their indices as they are read from front to back: every index
that is asked for is one of a byte, as long as the length of the text fits a 16-bit word.
-/

namespace JarCensus.ClassFile.Checked

open Text

variable {text rest : Bytes} {index : Nat} {lead : UInt8}

/-- The byte ahead of an index is found among the bytes after the one at the index. -/
theorem continuation_eq (hsize : text.length < 65536) (hrest : text.drop index = lead :: rest)
    {ahead : Nat} (hahead : ahead < 2) :
    continuation text index (ahead + 1) = pure (rest[ahead]?.filter ModifiedUtf8.continues) := by
  have hlength := congrArg List.length hrest
  rw [List.length_drop, List.length_cons] at hlength
  have hplace : index + (ahead + 1) < Bytes.end64 := by
    rw [Bytes.end64]
    omega
  have hbyte : text[index + (ahead + 1)]? = rest[ahead]? := by
    rw [← List.getElem?_drop, hrest, List.getElem?_cons_succ]
  rw [continuation, fit_bind hplace]
  simp only [hbyte]

/-- The unit at an index is the first one of the bytes from there, and the others follow the
bytes that it has. -/
theorem unitAt_eq (hsize : text.length < 65536) (hrest : text.drop index = lead :: rest) :
    ∃ unit, ∃ more ≤ 2, unitAt text index = pure (unit, more) ∧
      ModifiedUtf8.units (lead :: rest) = unit :: ModifiedUtf8.units (rest.drop more) := by
  have hlead : byteAt text index = pure lead := by
    have hbyte : text[index]? = some lead := by
      rw [← Nat.add_zero index, ← List.getElem?_drop, hrest]
      rfl
    simp only [byteAt, hbyte]
  have hsecond := continuation_eq hsize hrest (show 0 < 2 by decide)
  have hthird := continuation_eq hsize hrest (show 1 < 2 by decide)
  rw [unitAt, hlead, pure_bind, hsecond, hthird, ModifiedUtf8.units.eq_def]
  by_cases hone : lead < 0x80
  · refine ⟨lead.toUInt16, 0, Nat.zero_le 2, if_pos hone, ?_⟩
    simp only [if_pos hone, List.drop_zero]
  by_cases htwo : (lead &&& 0xE0 == 0xC0) = true
  · simp only [if_neg hone, if_pos htwo, pure_bind]
    -- The byte after the first one decides, when there is one.
    cases rest with
    | nil => exact ⟨ModifiedUtf8.replacementUnit, 0, Nat.zero_le 2, rfl, rfl⟩
    | cons second rest =>
      by_cases hcontinues : ModifiedUtf8.continues second = true
      · exact ⟨ModifiedUtf8.unit₂ lead second, 1, Nat.le_succ 1,
          by simp [Option.filter, hcontinues], if_pos hcontinues⟩
      · exact ⟨ModifiedUtf8.replacementUnit, 0, Nat.zero_le 2, by simp [Option.filter, hcontinues],
          if_neg hcontinues⟩
  by_cases hthree : (lead &&& 0xF0 == 0xE0) = true
  · simp only [if_neg hone, if_neg htwo, if_pos hthree, pure_bind]
    match rest with
    | [] => exact ⟨ModifiedUtf8.replacementUnit, 0, Nat.zero_le 2, rfl, rfl⟩
    | [second] =>
      refine ⟨ModifiedUtf8.replacementUnit, 0, Nat.zero_le 2, ?_, rfl⟩
      cases hcontinues : ModifiedUtf8.continues second <;> simp [Option.filter, hcontinues]
    | second :: third :: rest =>
      by_cases hcontinues : (ModifiedUtf8.continues second && ModifiedUtf8.continues third) = true
      · refine ⟨ModifiedUtf8.unit₃ lead second third, 2, Nat.le_refl 2, ?_, if_pos hcontinues⟩
        obtain ⟨htail, hlast⟩ := Bool.and_eq_true_iff.mp hcontinues
        simp [Option.filter, htail, hlast]
      · refine ⟨ModifiedUtf8.replacementUnit, 0, Nat.zero_le 2, ?_, if_neg hcontinues⟩
        cases htail : ModifiedUtf8.continues second <;>
          cases hlast : ModifiedUtf8.continues third <;> simp_all [Option.filter]
  · refine ⟨ModifiedUtf8.replacementUnit, 0, Nat.zero_le 2, ?_, ?_⟩
    · simp only [if_neg hone, if_neg htwo, if_neg hthree]
    · simp only [if_neg hone, if_neg htwo, if_neg hthree, List.drop_zero]

/-- The units from an index on are those of the bytes from there. -/
theorem unitsFrom_eq (hsize : text.length < 65536) (index : Nat) :
    unitsFrom text index = pure (ModifiedUtf8.units (text.drop index)) := by
  -- The induction is on the number of bytes that are left.
  generalize hleft : text.length - index = left
  induction left using Nat.strongRecOn generalizing index with
  | ind left ih =>
    rw [unitsFrom]
    by_cases hinside : index < text.length
    · obtain ⟨lead, rest, hrest⟩ : ∃ lead rest, text.drop index = lead :: rest :=
        ⟨_, _, List.drop_eq_getElem_cons hinside⟩
      obtain ⟨unit, more, hmore, hunit, hunits⟩ := unitAt_eq hsize hrest
      have hnext : index + (more + 1) < Bytes.end64 := by
        rw [Bytes.end64]
        omega
      have hdrop : text.drop (index + (more + 1)) = rest.drop more := by
        rw [← List.drop_drop, hrest, List.drop_succ_cons]
      rw [if_pos hinside, hunit, pure_bind]
      dsimp only
      rw [fit_bind hnext, ih (text.length - (index + (more + 1))) (by omega) _ rfl,
        pure_bind, hdrop, hrest, hunits]
    · rw [if_neg hinside, List.drop_of_length_le (by omega)]
      rfl

/-- The text of bytes of a constant is that of the bytes. -/
theorem decode_eq (hsize : text.length < 65536) :
    decode text = pure (ModifiedUtf8.decode text) := by
  rw [decode, ModifiedUtf8.decode]
  cases Utf8.decode? text with
  | some chars => rfl
  | none =>
    simp only [unitsFrom_eq hsize, pure_bind, List.drop_zero]

end JarCensus.ClassFile.Checked
