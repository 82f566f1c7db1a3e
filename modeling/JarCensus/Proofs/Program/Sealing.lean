import JarCensus.Program.Basic
import JarCensus.Proofs.ClassFile.Exactness
import JarCensus.Proofs.Config.Session
import JarCensus.Proofs.Decryption.Gate
import JarCensus.Proofs.Decryption.Key
import JarCensus.Proofs.FileSystem.Name
import JarCensus.Proofs.Program.Saving

/-!
# Sealed classes in a session

Classes are sealed by a command of their own and opened by the gate of a session. Both
derive their secret from the configuration, each in its own way, and they meet in the file that
the command saves. For a protected path, what a session says of the bytes in that file is what
it would say of the plain ones without a gate, marked as decrypted. For every other path the gate
makes no difference.
-/

namespace JarCensus

open Decryption

/-- A sealed class comes out of the gate of a protected path as it was before it was sealed. -/
theorem Decryption.Gate.apply_encrypt {rule : MarkerRule} {secret : Secret} {path : String}
    (hprotected : rule.protects path = true) (plain : Bytes) :
    (Gate.enabled rule secret StandardCipher.decrypt).apply path
      (StandardCipher.encrypt secret plain) = .ok ⟨plain, true⟩ := by
  have hnonempty := StandardCipher.encrypt_ne_nil secret plain
  rw [Gate.apply_eq_ok_iff, if_pos ⟨hnonempty, hprotected⟩]
  exact ⟨StandardCipher.decrypt_encrypt secret plain, rfl⟩

/-- The same finding on bytes that the transform made. -/
def Finding.asDecrypted (finding : Finding) : Finding := { finding with decrypted := true }

/-- The same fault of bytes that the transform made: not being a class file is put down to the
gate. -/
def EntryFault.asRejected (fault : EntryFault) : EntryFault :=
  match fault.cause with
  | .malformed cause => { fault with cause := .decryption (.rejected cause) }
  | _ => fault

namespace Session

variable {rule : MarkerRule} {secret : Secret} {criteria : Criteria} {path : String}

/-- Without a gate, what is said of bytes is what reading them as a class comes to. -/
theorem examine_disabled (raw : Bytes) :
    examine .disabled criteria path raw =
      ((ClassFile.parse raw).map fun summary =>
        ⟨summary, criteria.categorize summary.annotations, false⟩).mapError
          fun fault => ⟨path, .malformed fault⟩ := by
  simp only [examine, Gate.apply, Gate.disabled]
  cases ClassFile.parse raw <;> rfl

/-- Of a sealed class the gate of a protected path makes what would be said of the class without
a gate. -/
theorem examine_encrypt (hprotected : rule.protects path = true) (plain : Bytes) :
    examine (.enabled rule secret StandardCipher.decrypt) criteria path
        (StandardCipher.encrypt secret plain) =
      ((examine .disabled criteria path plain).map (·.asDecrypted)).mapError (·.asRejected) := by
  rw [examine_disabled]
  simp only [examine, Gate.apply_encrypt hprotected]
  cases ClassFile.parse plain <;> rfl

/-- On a path that is not protected the gate makes no difference. -/
theorem examine_of_unprotected {transform : Transform} (hunprotected : rule.protects path = false)
    (raw : Bytes) :
    examine (.enabled rule secret transform) criteria path raw =
      examine .disabled criteria path raw := by
  have hclosed : ¬ (raw ≠ [] ∧ (Gate.enabled rule secret transform).isProtected path = true) :=
    fun hprotected => Bool.false_ne_true (hunprotected.symm.trans hprotected.2)
  have happly : (Gate.enabled rule secret transform).apply path raw = .ok ⟨raw, false⟩ := by
    rw [Gate.apply_eq_ok_iff, if_neg hclosed]
  simp only [examine, happly]
  rfl

end Session

/-- That the sealing command reads a file with the plain bytes, ends well, and leaves the sealed
bytes where it was asked to put them. -/
structure SealedAs (fs : FileSystem) (pools : PoolBuilder) (config : Config)
    (input output : String) (plain : Bytes) (files : FileSystem) (sealedBytes : Bytes) : Prop where
  /-- The plain bytes are read. -/
  read : fs.read input = .ok plain
  /-- The command ends well, prints nothing and leaves the files behind. -/
  ends : ∀ duration, Program.finish fs duration
    (Program.perform fs pools config (.seal input output)) = ⟨0, "", "", files⟩
  /-- The sealed bytes are what is read then. -/
  written : files.read output = .ok sealedBytes

/-- What a session says of sealed classes under the configuration that it was started from,
where `bare` is the session of the configuration without decryption. -/
structure SealedTransparently (config : Config) (pools : PoolBuilder) (rule : MarkerRule)
    (secret : Secret) (session bare : Session) : Prop where
  /-- Sealing makes its key without an error. -/
  key : Program.sealingKey config = .ok secret
  /-- A file that can be read is sealed into any place that takes a file. -/
  seals : ∀ {fs : FileSystem} {input output : String} {plain : Bytes},
    fs.read input = .ok plain → fs.TakesFile output →
    ∃ files sealedBytes, SealedAs fs pools config input output plain files sealedBytes
  /-- The sealed bytes are not empty. -/
  nonempty : ∀ {fs files : FileSystem} {input output : String} {plain sealedBytes : Bytes},
    SealedAs fs pools config input output plain files sealedBytes → sealedBytes ≠ []
  /-- The sealed bytes of a class are read and categorized like the class. -/
  opened : ∀ {fs files : FileSystem} {input output path : String} {plain sealedBytes : Bytes}
    {summary : ClassFile.Summary},
    SealedAs fs pools config input output plain files sealedBytes →
    rule.protects path = true → ClassFile.parse plain = .ok summary →
    Session.examine session.gate session.criteria path sealedBytes =
      .ok ⟨summary, config.criteria.categorize summary.annotations, true⟩
  /-- The sealed bytes of anything else are rejected, for the reason for which it is not a
  class. -/
  rejected : ∀ {fs files : FileSystem} {input output path : String} {plain sealedBytes : Bytes}
    {fault : ClassFile.Fault},
    SealedAs fs pools config input output plain files sealedBytes →
    rule.protects path = true → ClassFile.parse plain = .error fault →
    Session.examine session.gate session.criteria path sealedBytes =
      .error ⟨path, .decryption (.rejected fault)⟩
  /-- Of the sealed bytes the session says what the session without decryption says of the plain
  bytes, up to the mark and to whom a fault is put down to. -/
  agrees : ∀ {fs files : FileSystem} {input output path : String} {plain sealedBytes : Bytes},
    SealedAs fs pools config input output plain files sealedBytes →
    rule.protects path = true →
    Session.examine session.gate session.criteria path sealedBytes =
      ((Session.examine bare.gate bare.criteria path plain).map (·.asDecrypted)).mapError
        (·.asRejected)
  /-- The inspecting command, given the file that was written, reports what the session says of
  the sealed bytes. -/
  inspected : ∀ {fs files : FileSystem} {input output path : String} {plain sealedBytes : Bytes},
    SealedAs fs pools config input output plain files sealedBytes →
    Program.inspect files pools config output (some path) =
      ((Session.examine session.gate session.criteria path sealedBytes).map
        (ClassReport.ofInspection path (session.gate.isProtected path))).mapError .entry
  /-- On a path that is not protected, both sessions say the same of any bytes. -/
  unprotected : ∀ {path : String} (raw : Bytes), rule.protects path = false →
    Session.examine session.gate session.criteria path raw =
      Session.examine bare.gate bare.criteria path raw

namespace Config

variable {config : Config} {pools : PoolBuilder} {settings : GateConfig} {session : Session}
  {secret : Secret} {fs files : FileSystem} {input output : String} {plain sealedBytes : Bytes}

/-- Sealing makes its key from the configuration as a session does. -/
theorem sealingKey_eq_ok {key : Bytes}
    (hdecryption : config.decryption = some settings) (hkey : settings.keyBytes = .ok key)
    (hsecret : Secret.make key settings.seed = .ok secret) :
    Program.sealingKey config = .ok secret := by
  simp only [Program.sealingKey, hdecryption, hkey, hsecret]
  rfl

/-- The command that seals a file that can be read has its sealed form to save. -/
theorem perform_seal (hkey : Program.sealingKey config = .ok secret)
    (hread : fs.read input = .ok plain) :
    Program.perform fs pools config (.seal input output) =
      .ok (.encrypted (StandardCipher.encrypt secret plain) output) := by
  simp only [Program.perform, Program.sealFile, hkey, hread]
  rfl

/-- The command that seals a file ends well exactly when it saves the sealed form. -/
theorem finish_seal_iff (hkey : Program.sealingKey config = .ok secret)
    (hread : fs.read input = .ok plain) (duration : Nat) :
    Program.finish fs duration (Program.perform fs pools config (.seal input output)) =
        ⟨0, "", "", files⟩ ↔
      Program.save fs output (StandardCipher.encrypt secret plain) = (files, .ok ()) := by
  rw [perform_seal hkey hread]
  simp only [Program.finish, Program.deliver]
  cases hsave : Program.save fs output (StandardCipher.encrypt secret plain) with
  | mk left saved => cases saved <;> simp [Except.map]

/-- A file that can be read is sealed into any place that takes a file. -/
theorem exists_sealedAs (hkey : Program.sealingKey config = .ok secret)
    (hread : fs.read input = .ok plain) (htakes : fs.TakesFile output) :
    ∃ files sealedBytes, SealedAs fs pools config input output plain files sealedBytes := by
  obtain ⟨files, hsave⟩ :=
    Program.exists_save_of_takesFile htakes (StandardCipher.encrypt secret plain)
  exact ⟨files, _, hread, fun duration => (finish_seal_iff hkey hread duration).mpr hsave,
    Program.read_save hsave⟩

/-- What is read after sealing is the sealed form of what was read before. -/
theorem eq_encrypt_of_sealedAs (hkey : Program.sealingKey config = .ok secret)
    (hsealed : SealedAs fs pools config input output plain files sealedBytes) :
    sealedBytes = StandardCipher.encrypt secret plain := by
  have hsave := (finish_seal_iff hkey hsealed.read 0).mp (hsealed.ends 0)
  exact Except.ok.inj (hsealed.written.symm.trans (Program.read_save hsave))

/-- The inspecting command reports what the session says of the bytes of the file. -/
theorem inspect_eq (hsession : config.session pools = .ok session) {raw : Bytes} {file : String}
    (hread : fs.read file = .ok raw) (path : String) :
    Program.inspect fs pools config file (some path) =
      ((Session.examine session.gate session.criteria path raw).map
        (ClassReport.ofInspection path (session.gate.isProtected path))).mapError .entry := by
  have hopened : Program.inspect fs pools config file (some path) = (do
      let finding ←
        (Session.examine session.gate session.criteria path raw).mapError Program.Fault.entry
      return .ofInspection path (session.gate.isProtected path) finding) := by
    simp only [Program.inspect, hread, hsession]
    rfl
  rw [hopened]
  cases Session.examine session.gate session.criteria path raw <;> rfl

/-- Under a configuration that starts a session with decryption, sealing and the gate of that
session cancel out: classes are sealed under the key of the session, and the session says of
sealed classes and of unprotected paths what it would say without decryption. -/
theorem session_opens_sealed (hdecryption : config.decryption = some settings)
    (hsession : config.session pools = .ok session) :
    ∃ rule secret bare,
      MarkerRule.make settings.protectedMarker settings.syntheticMarker = .ok rule ∧
      { config with decryption := none }.session pools = .ok bare ∧
      SealedTransparently config pools rule secret session bare := by
  obtain ⟨hstaffed, key, rule, secret, hkey, hrule, hsecret, hstart⟩ :=
    (session_eq_ok_iff hdecryption).mp hsession
  have hsealing := sealingKey_eq_ok hdecryption hkey hsecret
  refine ⟨rule, secret, .start .disabled config.criteria, hrule,
    session_of_decryption_eq_none rfl hstaffed, ?_⟩
  exact {
    key := hsealing
    seals := exists_sealedAs hsealing
    nonempty := by
      intro fs files input output plain sealedBytes hsealed
      rw [eq_encrypt_of_sealedAs hsealing hsealed]
      exact StandardCipher.encrypt_ne_nil secret plain
    opened := by
      intro fs files input output path plain sealedBytes summary hsealed hprotected hparse
      rw [eq_encrypt_of_sealedAs hsealing hsealed, hstart]
      refine (Session.examine_encrypt hprotected plain).trans ?_
      rw [Session.examine_disabled, hparse]
      rfl
    rejected := by
      intro fs files input output path plain sealedBytes fault hsealed hprotected hparse
      rw [eq_encrypt_of_sealedAs hsealing hsealed, hstart]
      refine (Session.examine_encrypt hprotected plain).trans ?_
      rw [Session.examine_disabled, hparse]
      rfl
    agrees := by
      intro fs files input output path plain sealedBytes hsealed hprotected
      rw [eq_encrypt_of_sealedAs hsealing hsealed, hstart]
      exact Session.examine_encrypt hprotected plain
    inspected := fun hsealed => inspect_eq hsession hsealed.written _
    unprotected := by
      intro path raw hunprotected
      rw [hstart]
      exact Session.examine_of_unprotected hunprotected raw }

/-- A configuration with blanks around its key and digits of both cases. -/
def spacedKey : Config :=
  ⟨some ⟨"com/seassoon/", "$$", " 0a0B0c0D0e0F00010203\n", "seed"⟩, none, none, none⟩

/-- A working folder with a class file. -/
def classFolder : FileSystem :=
  ⟨.folder [("A.class", .file ClassFile.annotatedClass.encode)], []⟩

/-- A key with blanks around it seals what the session opens, on protected paths only: a class
that was saved in sealed form is read back and categorized. -/
theorem session_opens_sealed_spacedKey :
    ∃ session rule secret bare, spacedKey.session = .ok session ∧
      SealedTransparently spacedKey .unlimited rule secret session bare ∧
      rule.protects "/com/seassoon/A.class" = true ∧
      rule.protects "com/seassoon/A$$B.class" = false ∧
      ∃ files sealedBytes,
        SealedAs classFolder .unlimited spacedKey "A.class" "B.class"
          ClassFile.annotatedClass.encode files sealedBytes ∧
        Session.examine session.gate session.criteria "/com/seassoon/A.class" sealedBytes =
          .ok ⟨⟨"A", ["E"]⟩, spacedKey.criteria.categorize ["E"], true⟩ := by
  have hdecryption : spacedKey.decryption =
      some ⟨"com/seassoon/", "$$", " 0a0B0c0D0e0F00010203\n", "seed"⟩ := rfl
  have hrule : MarkerRule.make "com/seassoon/" "$$" =
      .ok ⟨"com/seassoon/", "$$", by decide⟩ := rfl
  let secret : Secret := ⟨[10, 11, 12, 13, 14, 15, 0, 1, 2, 3], "seed", rfl, by decide⟩
  have hsession : spacedKey.session = .ok _ :=
    (session_eq_ok_iff hdecryption).mpr ⟨staffed_unlimited spacedKey,
      secret.key, _, secret, by decide, hrule, Secret.make_eq_ok_iff.mpr ⟨rfl, rfl⟩, rfl⟩
  obtain ⟨rule, made, bare, hmade, -, htransparent⟩ :=
    session_opens_sealed hdecryption hsession
  obtain rfl := Except.ok.inj (hrule.symm.trans hmade)
  have hread : classFolder.read "A.class" = .ok ClassFile.annotatedClass.encode :=
    FileSystem.read_of_isName (by constructor <;> decide) rfl
  have htakes : classFolder.TakesFile "B.class" :=
    FileSystem.takesFile_of_isName (by constructor <;> decide) (by decide) rfl
  have hparse : ClassFile.parse ClassFile.annotatedClass.encode = .ok ⟨"A", ["E"]⟩ := by
    decide +kernel
  obtain ⟨files, sealedBytes, hsealed⟩ := htransparent.seals hread htakes
  exact ⟨_, _, made, bare, hsession, htransparent, by decide, by decide, files, sealedBytes,
    hsealed, htransparent.opened hsealed (by decide) hparse⟩

end Config

end JarCensus
