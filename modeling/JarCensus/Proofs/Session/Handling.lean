import JarCensus.Program.Basic
import JarCensus.Proofs.Decryption.Gate
import JarCensus.Proofs.Session.Settling
import JarCensus.Proofs.Success

/-!
# How an entry is handled

An entry that fails does so for a cause that its stream, the gate and the class reader
decide, and each cause has its own condition. What fails or is discarded leaves the session
as it was, and what is recorded changes the answer under a single key.
-/

namespace JarCensus

namespace Session

variable {gate : Decryption.Gate} {criteria : Criteria} {session : Session} {entry : Entry}
  {path : String} {raw : Bytes}

/-- Bytes that the gate transforms are what the transform makes of them. -/
theorem examine_of_transformed (htransformed : raw ≠ [] ∧ gate.isProtected path = true) :
    examine gate criteria path raw =
      match gate.decrypt raw with
      | .error error => .error ⟨path, .decryption error⟩
      | .ok plain =>
        match ClassFile.parse plain with
        | .ok summary => .ok ⟨summary, criteria.categorize summary.annotations, true⟩
        | .error fault => .error ⟨path, .decryption (.rejected fault)⟩ := by
  cases hdecrypt : gate.decrypt raw with
  | error error =>
    have happly : gate.apply path raw = .error error :=
      Decryption.Gate.apply_eq_error_iff.mpr ⟨htransformed, hdecrypt⟩
    simp only [examine, happly]
  | ok plain =>
    have happly : gate.apply path raw = .ok ⟨plain, true⟩ := by
      rw [Decryption.Gate.apply_eq_ok_iff, if_pos htransformed]
      exact ⟨hdecrypt, rfl⟩
    simp only [examine, happly]
    rfl

/-- Other bytes are read as they are. -/
theorem examine_of_untransformed (hpassed : ¬(raw ≠ [] ∧ gate.isProtected path = true)) :
    examine gate criteria path raw =
      match ClassFile.parse raw with
      | .ok summary => .ok ⟨summary, criteria.categorize summary.annotations, false⟩
      | .error fault => .error ⟨path, .malformed fault⟩ := by
  have happly : gate.apply path raw = .ok ⟨raw, false⟩ := by
    rw [Decryption.Gate.apply_eq_ok_iff, if_neg hpassed]
  simp only [examine, happly]
  rfl

/-- The transform is at fault exactly when the gate runs it and it refuses the bytes. -/
theorem examine_eq_refused_iff {reason : String} :
    examine gate criteria path raw = .error ⟨path, .decryption (.refused reason)⟩ ↔
      (raw ≠ [] ∧ gate.isProtected path = true) ∧ gate.decrypt raw = .error (.refused reason) := by
  by_cases htransformed : raw ≠ [] ∧ gate.isProtected path = true
  · rw [examine_of_transformed htransformed, and_iff_right htransformed]
    cases gate.decrypt raw with
    | error found => simp
    | ok plain =>
      dsimp only
      cases ClassFile.parse plain <;> simp
  · rw [examine_of_untransformed htransformed, iff_false_right fun h => htransformed h.1]
    cases ClassFile.parse raw <;> simp

/-- Bytes are rejected exactly when the gate runs the transform and it rejects them itself, or
what it makes of them is no class file. -/
theorem examine_eq_rejected_iff {fault : ClassFile.Fault} :
    examine gate criteria path raw = .error ⟨path, .decryption (.rejected fault)⟩ ↔
      (raw ≠ [] ∧ gate.isProtected path = true) ∧
        (gate.decrypt raw = .error (.rejected fault) ∨
          ∃ plain, gate.decrypt raw = .ok plain ∧ ClassFile.parse plain = .error fault) := by
  by_cases htransformed : raw ≠ [] ∧ gate.isProtected path = true
  · rw [examine_of_transformed htransformed, and_iff_right htransformed]
    cases gate.decrypt raw with
    | error found => simp
    | ok plain => cases hparse : ClassFile.parse plain <;> simp [hparse]
  · rw [examine_of_untransformed htransformed, iff_false_right fun h => htransformed h.1]
    cases ClassFile.parse raw <;> simp

/-- Bytes are malformed exactly when they are no class file and the gate leaves them alone. -/
theorem examine_eq_malformed_iff {fault : ClassFile.Fault} :
    examine gate criteria path raw = .error ⟨path, .malformed fault⟩ ↔
      ¬(raw ≠ [] ∧ gate.isProtected path = true) ∧ ClassFile.parse raw = .error fault := by
  by_cases htransformed : raw ≠ [] ∧ gate.isProtected path = true
  · rw [examine_of_transformed htransformed, iff_false_right fun h => h.1 htransformed]
    cases gate.decrypt raw with
    | error found => simp
    | ok plain =>
      dsimp only
      cases ClassFile.parse plain <;> simp
  · rw [examine_of_untransformed htransformed, and_iff_right htransformed]
    cases ClassFile.parse raw <;> simp

/-- A class that was found has been transformed exactly when its path is protected: where there
are no bytes to transform there is no class either. -/
theorem decrypted_of_examine {finding : Finding}
    (hfound : examine gate criteria path raw = .ok finding) :
    finding.decrypted = gate.isProtected path := by
  by_cases htransformed : raw ≠ [] ∧ gate.isProtected path = true
  · rw [examine_of_transformed htransformed] at hfound
    split at hfound
    · cases hfound
    · split at hfound
      · obtain rfl := Except.ok.inj hfound
        exact htransformed.2.symm
      · cases hfound
  · rw [examine_of_untransformed htransformed] at hfound
    split at hfound
    · rename_i summary hparse
      obtain rfl := Except.ok.inj hfound
      have hraw : raw ≠ [] := by
        rintro rfl
        have hnone : ClassFile.parse [] = .error (.truncated 0 4) := rfl
        rw [hnone] at hparse
        cases hparse
      have hopen : ¬gate.isProtected path = true := fun h => htransformed ⟨hraw, h⟩
      exact (Bool.eq_false_iff.mpr hopen).symm
    · cases hfound

/-- Reading a stream fails exactly when it cannot be opened, or when it breaks off, whatever it
gave before. -/
theorem read_eq_error_iff {stream : Stream} {reason : String} : stream.read = .error reason ↔
    stream = .unopenable reason ∨ ∃ start, stream = .broken start reason := by
  cases stream <;> simp [Stream.read]

/-- An entry with bytes is examined by its bytes. -/
theorem examineEntry_of_content (hcontent : entry.stream = .content raw) :
    examineEntry gate criteria entry = examine gate criteria entry.name raw := by
  simp only [examineEntry, hcontent, Stream.read]

/-- An entry is unreadable exactly when its stream cannot be read. -/
theorem examineEntry_eq_unreadable_iff {reason : String} :
    examineEntry gate criteria entry = .error ⟨entry.name, .unreadable reason⟩ ↔
      entry.stream.read = .error reason := by
  cases hread : entry.stream.read with
  | error found => simp [examineEntry, hread]
  | ok raw =>
    simp only [examineEntry, hread, reduceCtorEq, iff_false]
    intro hunreadable
    by_cases htransformed : raw ≠ [] ∧ gate.isProtected entry.name = true
    · rw [examine_of_transformed htransformed] at hunreadable
      split at hunreadable
      · cases hunreadable
      · split at hunreadable <;> cases hunreadable
    · rw [examine_of_untransformed htransformed] at hunreadable
      split at hunreadable <;> cases hunreadable

/-- Handling an entry fails as examining it does, and then nothing has happened. -/
theorem handle_of_error {error : EntryFault}
    (herror : examineEntry session.gate session.criteria entry = .error error) :
    session.handle entry = (session, .error error) := by
  simp only [handle, herror]

/-- Handling an entry that holds a class discards it when the class has neither category, and
records it otherwise. -/
theorem handle_of_ok {finding : Finding}
    (hok : examineEntry session.gate session.criteria entry = .ok finding) :
    session.handle entry =
      if finding.category = .other then (session, .ok .discarded)
      else ({ session with
        census := session.census.record (describe entry finding) entry.isRoot },
          .ok (.recorded finding.category)) := by
  simp only [handle, hok]

/-- Handling an entry fails exactly as examining it does. -/
theorem handle_snd_eq_error_iff {error : EntryFault} :
    (session.handle entry).2 = .error error ↔
      examineEntry session.gate session.criteria entry = .error error := by
  cases hexamined : examineEntry session.gate session.criteria entry with
  | error found => simp [handle_of_error hexamined]
  | ok finding =>
    rw [handle_of_ok hexamined]
    split <;> simp

/-- That a session differs from another in the descriptor under one key at most. -/
structure Rebound (before after : Session) (category : Category) (isRoot : Bool) (name : String)
    (descriptor : Descriptor) : Prop where
  /-- The descriptor is held under the key. -/
  held : after.census.get? category isRoot name = some descriptor
  /-- Under every other key the session holds what it held before. -/
  others : ∀ category' isRoot' name', (category', isRoot', name') ≠ (category, isRoot, name) →
    after.census.get? category' isRoot' name' = before.census.get? category' isRoot' name'
  /-- Everything else is as before. -/
  rest : after = { before with census := after.census }

/-- Recording a descriptor of either category rebinds its key and no other. -/
theorem rebound_record (session : Session) {descriptor : Descriptor} (isRoot : Bool)
    (hkept : descriptor.category ≠ .other) :
    Rebound session { session with census := session.census.record descriptor isRoot }
      descriptor.category isRoot descriptor.name descriptor where
  held := by
    have hlands : Census.lands descriptor.category isRoot descriptor.name (descriptor, isRoot) := by
      simp [Census.lands, hkept]
    exact (Census.get?_record session.census (descriptor, isRoot) ..).trans (if_pos hlands)
  others := by
    intro category' isRoot' name' hother
    have hmisses : ¬Census.lands category' isRoot' name' (descriptor, isRoot) :=
      fun hlands => hother (Census.key_eq_of_lands hlands).symm
    exact (Census.get?_record session.census (descriptor, isRoot) ..).trans (if_neg hmisses)
  rest := rfl

/-- An entry that is discarded leaves the session as it was. -/
theorem handle_fst_of_discarded (hdiscarded : (session.handle entry).2 = .ok .discarded) :
    (session.handle entry).1 = session := by
  cases hexamined : examineEntry session.gate session.criteria entry with
  | error error => rw [handle_of_error hexamined]
  | ok finding =>
    rw [handle_of_ok hexamined] at hdiscarded ⊢
    split at hdiscarded
    · rename_i hother
      rw [if_pos hother]
    · cases hdiscarded

/-- An entry that is recorded rebinds the key of its class. -/
theorem rebound_of_recorded {category : Category}
    (hrecorded : (session.handle entry).2 = .ok (.recorded category)) :
    ∃ name descriptor,
      Records session.gate session.criteria entry category entry.isRoot name descriptor ∧
        Rebound session (session.handle entry).1 category entry.isRoot name descriptor := by
  cases hexamined : examineEntry session.gate session.criteria entry with
  | error error =>
    rw [handle_of_error hexamined] at hrecorded
    cases hrecorded
  | ok finding =>
    rw [handle_of_ok hexamined] at hrecorded ⊢
    split at hrecorded
    · cases hrecorded
    · rename_i hkept
      cases hrecorded
      rw [if_neg hkept]
      exact ⟨_, describe entry finding, records_of_examineEntry hexamined hkept,
        rebound_record session entry.isRoot hkept⟩

/-- A report on a single class says that it was transformed exactly when its path is protected. -/
theorem decrypted_of_inspect {fs : FileSystem} {pools : PoolBuilder} {config : Config}
    {classFile : String} {path : Option String} {report : ClassReport}
    (hreport : Program.inspect fs pools config classFile path = .ok report) :
    report.decrypted = report.isProtected := by
  simp only [Program.inspect, bind_eq_ok_iff, mapError_eq_ok_iff, pure, Except.pure,
    Except.ok.injEq] at hreport
  obtain ⟨raw, -, session, -, finding, hfound, rfl⟩ := hreport
  exact decrypted_of_examine hfound

/-- How an entry is handled in a session: which cause it fails for, and what becomes of the
session. -/
structure Handled (session : Session) (entry : Entry) : Prop where
  /-- An entry is unreadable exactly when its stream cannot be opened, or when reading on fails
  after any bytes, be they a whole class. -/
  unreadable : ∀ reason,
    (session.handle entry).2 = .error ⟨entry.name, .unreadable reason⟩ ↔
      entry.stream = .unopenable reason ∨ ∃ start, entry.stream = .broken start reason
  /-- The transform fails exactly when the path is protected, there are bytes, and the transform
  refuses them. -/
  refused : ∀ raw reason, entry.stream = .content raw →
    ((session.handle entry).2 = .error ⟨entry.name, .decryption (.refused reason)⟩ ↔
      session.gate.isProtected entry.name = true ∧ raw ≠ [] ∧
        ∃ lock, session.gate.lock = some lock ∧
          lock.transform lock.key raw = .error (.refused reason))
  /-- An entry is rejected exactly when the path is protected, there are bytes, and the transform
  rejects them itself or makes of them what is no class file. -/
  rejected : ∀ raw fault, entry.stream = .content raw →
    ((session.handle entry).2 = .error ⟨entry.name, .decryption (.rejected fault)⟩ ↔
      session.gate.isProtected entry.name = true ∧ raw ≠ [] ∧
        ∃ lock, session.gate.lock = some lock ∧
          (lock.transform lock.key raw = .error (.rejected fault) ∨
            ∃ plain, lock.transform lock.key raw = .ok plain ∧
              ClassFile.parse plain = .error fault))
  /-- Where the transform rejects nothing itself, an entry is therefore rejected exactly when what
  the transform makes of it is no class file. -/
  rejectedAsClass : session.gate.OnlyRefuses → ∀ raw fault, entry.stream = .content raw →
    ((session.handle entry).2 = .error ⟨entry.name, .decryption (.rejected fault)⟩ ↔
      session.gate.isProtected entry.name = true ∧ raw ≠ [] ∧
        ∃ lock plain, session.gate.lock = some lock ∧ lock.transform lock.key raw = .ok plain ∧
          ClassFile.parse plain = .error fault)
  /-- An entry is malformed exactly when the path is not protected or there are no bytes, and the
  bytes are no class file. -/
  malformed : ∀ raw fault, entry.stream = .content raw →
    ((session.handle entry).2 = .error ⟨entry.name, .malformed fault⟩ ↔
      (session.gate.isProtected entry.name = false ∨ raw = []) ∧
        ClassFile.parse raw = .error fault)
  /-- Every error names the path of the entry. -/
  path : ∀ error, (session.handle entry).2 = .error error → error.path = entry.name
  /-- An entry that fails leaves the session as it was. -/
  failed : ∀ error, (session.handle entry).2 = .error error → (session.handle entry).1 = session
  /-- So does an entry that is discarded. -/
  discarded : (session.handle entry).2 = .ok .discarded → (session.handle entry).1 = session
  /-- An entry that is recorded is bound under its category, its origin and the name of its
  class, and nothing else changes. -/
  recorded : ∀ category, (session.handle entry).2 = .ok (.recorded category) →
    ∃ name descriptor,
      Records session.gate session.criteria entry category entry.isRoot name descriptor ∧
        Rebound session (session.handle entry).1 category entry.isRoot name descriptor
  /-- A class that is found under any path was transformed exactly when the path is protected. -/
  inspected : ∀ path raw finding,
    examine session.gate session.criteria path raw = .ok finding →
      finding.decrypted = session.gate.isProtected path
  /-- Reports on a single class therefore say the same of both. -/
  reported : ∀ fs pools config classFile path report,
    Program.inspect fs pools config classFile path = .ok report →
      report.decrypted = report.isProtected

/-- An entry with bytes is rejected exactly when its path is protected, it is not empty, and the
transform rejects it itself or makes of it what is no class file. -/
theorem handle_eq_rejected_iff {fault : ClassFile.Fault} (hcontent : entry.stream = .content raw) :
    (session.handle entry).2 = .error ⟨entry.name, .decryption (.rejected fault)⟩ ↔
      session.gate.isProtected entry.name = true ∧ raw ≠ [] ∧
        ∃ lock, session.gate.lock = some lock ∧
          (lock.transform lock.key raw = .error (.rejected fault) ∨
            ∃ plain, lock.transform lock.key raw = .ok plain ∧
              ClassFile.parse plain = .error fault) := by
  rw [handle_snd_eq_error_iff, examineEntry_of_content hcontent, examine_eq_rejected_iff,
    and_comm (a := raw ≠ []), and_assoc]
  refine and_congr_right fun hprotected => and_congr_right fun _ => ?_
  obtain ⟨lock, hlock⟩ := Decryption.Gate.exists_lock_of_isProtected hprotected
  simp [Decryption.Gate.decrypt, hlock]

/-- Every entry is handled in this way in every session. -/
theorem handled (session : Session) (entry : Entry) : Handled session entry where
  unreadable := by
    intro reason
    rw [handle_snd_eq_error_iff, examineEntry_eq_unreadable_iff, read_eq_error_iff]
  refused := by
    intro raw reason hcontent
    rw [handle_snd_eq_error_iff, examineEntry_of_content hcontent, examine_eq_refused_iff,
      and_comm (a := raw ≠ []), and_assoc]
    refine and_congr_right fun hprotected => and_congr_right fun _ => ?_
    obtain ⟨lock, hlock⟩ := Decryption.Gate.exists_lock_of_isProtected hprotected
    simp [Decryption.Gate.decrypt, hlock]
  rejected := fun _ _ hcontent => handle_eq_rejected_iff hcontent
  rejectedAsClass := by
    intro honly raw fault hcontent
    rw [handle_eq_rejected_iff hcontent]
    refine and_congr_right fun _ => and_congr_right fun _ => exists_congr fun lock => ?_
    rw [exists_and_left]
    refine and_congr_right fun hlock => ?_
    rw [or_iff_right (honly lock hlock raw fault)]
  malformed := by
    intro raw fault hcontent
    rw [handle_snd_eq_error_iff, examineEntry_of_content hcontent, examine_eq_malformed_iff,
      not_and_or, not_not, Bool.not_eq_true, or_comm (a := raw = [])]
  path := fun _ herror => examineEntry_error_path (handle_snd_eq_error_iff.mp herror)
  failed := by
    intro error herror
    rw [handle_of_error (handle_snd_eq_error_iff.mp herror)]
  discarded := handle_fst_of_discarded
  recorded := fun _ => rebound_of_recorded
  inspected := fun _ _ _ hfound => decrypted_of_examine hfound
  reported := fun _ _ _ _ _ _ => decrypted_of_inspect

end Session

end JarCensus
