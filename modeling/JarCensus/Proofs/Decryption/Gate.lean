import JarCensus.Decryption.Gate

/-!
# What comes out of a gate

A gate either transforms bytes or leaves them alone, and which of the two it does is
decided by the path and by whether there are any bytes. The transform itself does not
look at the path.
-/

namespace JarCensus.Decryption.Gate

variable {gate : Gate} {path : String} {bytes : Bytes} {passed : Passed}

/-- The gate runs the transform on bytes of a protected path, unless there are none, and leaves
all others alone. -/
theorem apply_eq (gate : Gate) (path : String) (bytes : Bytes) :
    gate.apply path bytes =
      if bytes ≠ [] ∧ gate.isProtected path then (⟨·, true⟩) <$> gate.decrypt bytes
      else .ok ⟨bytes, false⟩ := by
  obtain ⟨lock⟩ := gate
  cases lock with
  | none =>
    rw [if_neg (by simp [isProtected])]
    rfl
  | some lock =>
    by_cases hprotected : bytes ≠ [] ∧ lock.rule.protects path = true
    · have hopen : (bytes.isEmpty || !lock.rule.protects path) = false := by
        simpa using hprotected
      rw [if_pos (by simpa [isProtected] using hprotected)]
      simp only [apply, decrypt, hopen]
      rfl
    · have hclosed : (bytes.isEmpty || !lock.rule.protects path) = true := by
        cases hprotects : lock.rule.protects path <;> simp_all
      rw [if_neg (by simpa [isProtected] using hprotected)]
      simp only [apply, hclosed, if_true]

/-- An entry of a protected path that is not empty comes out of the gate transformed, and every
other entry comes out as it was. -/
theorem apply_eq_ok_iff :
    gate.apply path bytes = .ok passed ↔
      if bytes ≠ [] ∧ gate.isProtected path then
        gate.decrypt bytes = .ok passed.bytes ∧ passed.decrypted = true
      else passed = ⟨bytes, false⟩ := by
  rw [apply_eq]
  split
  · obtain ⟨plain, decrypted⟩ := passed
    cases gate.decrypt bytes <;> simp [Functor.map, Except.map, eq_comm]
  · rw [Except.ok.injEq, eq_comm]

/-- The gate only refuses bytes of a protected path, and with the cause that the transform
gives. -/
theorem apply_eq_error_iff {cause : TransformError} :
    gate.apply path bytes = .error cause ↔
      (bytes ≠ [] ∧ gate.isProtected path = true) ∧ gate.decrypt bytes = .error cause := by
  rw [apply_eq]
  split
  · rename_i hprotected
    cases gate.decrypt bytes <;> simp [Functor.map, Except.map, hprotected]
  · rename_i hprotected
    simp [hprotected]

/-- Bytes are transformed exactly when their path is protected and they are not empty. -/
theorem decrypted_iff_of_apply (happly : gate.apply path bytes = .ok passed) :
    passed.decrypted = true ↔ bytes ≠ [] ∧ gate.isProtected path = true := by
  rw [apply_eq_ok_iff] at happly
  split at happly
  · rename_i hprotected
    exact iff_of_true happly.2 hprotected
  · rename_i hprotected
    simp [happly, hprotected]

/-- Transformed bytes are what the transform makes whatever the path is. -/
theorem decrypt_of_apply (happly : gate.apply path bytes = .ok passed)
    (hdecrypted : passed.decrypted = true) : gate.decrypt bytes = .ok passed.bytes := by
  have hprotected := (decrypted_iff_of_apply happly).mp hdecrypted
  rw [apply_eq_ok_iff, if_pos hprotected] at happly
  exact happly.1

/-- Bytes that are not transformed come out as they were. -/
theorem bytes_eq_of_apply (happly : gate.apply path bytes = .ok passed)
    (hplain : passed.decrypted = false) : passed.bytes = bytes := by
  have hunprotected : ¬ (bytes ≠ [] ∧ gate.isProtected path = true) := by
    rw [← decrypted_iff_of_apply happly, hplain]
    exact Bool.false_ne_true
  rw [apply_eq_ok_iff, if_neg hunprotected] at happly
  rw [happly]

/-- A gate that protects a path has a lock. -/
theorem exists_lock_of_isProtected (hprotected : gate.isProtected path = true) :
    ∃ lock, gate.lock = some lock := by
  obtain ⟨lock⟩ := gate
  cases lock with
  | none => cases hprotected
  | some lock => exact ⟨lock, rfl⟩

/-- That the transform of a gate fails in no other way than by refusing the bytes. -/
def OnlyRefuses (gate : Gate) : Prop :=
  ∀ lock, gate.lock = some lock → ∀ bytes fault,
    lock.transform lock.key bytes ≠ .error (.rejected fault)

/-- The transform of a gate can only succeed when the gate has a lock. -/
theorem lock_of_decrypt {plain : Bytes} (hdecrypt : gate.decrypt bytes = .ok plain) :
    ∃ lock, gate.lock = some lock ∧ lock.transform lock.key bytes = .ok plain := by
  unfold decrypt at hdecrypt
  split at hdecrypt
  · rename_i lock hlock
    exact ⟨lock, hlock, hdecrypt⟩
  · cases hdecrypt

end JarCensus.Decryption.Gate
