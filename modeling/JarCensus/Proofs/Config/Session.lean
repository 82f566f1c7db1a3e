import JarCensus.Config.Basic
import JarCensus.Proofs.Success

/-!
# When a configuration starts a session

A configuration without decryption starts a session whose gate is disabled. One with
decryption starts a session exactly when its key is hexadecimal and its markers, its key
and its seed can be used, and the gate of the session is made from just these. Either of
them needs the workers that it asks for.
-/

namespace JarCensus

open Decryption

/-- A gate is made from settings exactly when they make a rule and a secret. -/
theorem Decryption.Gate.ofSettings_eq_ok_iff {transform : Transform} {settings : GateSettings}
    {gate : Gate} :
    Gate.ofSettings transform (some settings) = .ok gate ↔
      ∃ rule secret,
        MarkerRule.make settings.protectedMarker settings.syntheticMarker = .ok rule ∧
        Secret.make settings.key settings.seed = .ok secret ∧
        gate = .enabled rule secret transform := by
  simp only [Gate.ofSettings, bind_eq_ok_iff, pure, Except.pure, Except.ok.injEq]
  constructor
  · rintro ⟨rule, hrule, secret, hsecret, rfl⟩
    exact ⟨rule, secret, hrule, hsecret, rfl⟩
  · rintro ⟨rule, secret, hrule, hsecret, rfl⟩
    exact ⟨rule, hrule, secret, hsecret, rfl⟩

namespace Config

/-- That the pool of workers that a configuration asks for, if it does, can be built. A pool has
one worker at least. -/
def Staffed (config : Config) (pools : PoolBuilder) : Prop :=
  ∀ threads, config.threads = some threads → pools (max threads 1) = .ok ()

variable {config : Config} {pools : PoolBuilder} {settings : GateConfig} {session : Session}

/-- Where there is a pool for any number of workers, there is one for a configuration. -/
theorem staffed_unlimited (config : Config) : config.Staffed .unlimited := fun _ _ => rfl

/-- The workers of a configuration are built exactly when their pool can be. -/
theorem buildWorkers_eq_ok_iff :
    Session.buildWorkers pools config.threads = .ok () ↔ config.Staffed pools := by
  unfold Session.buildWorkers Staffed
  cases config.threads with
  | none => simp
  | some threads => simp [mapError_eq_ok_iff]

/-- The options of a configuration are its settings beside what it says itself. -/
theorem options_eq_ok_iff {options : SessionOptions} :
    config.options = .ok options ↔ ∃ settings, config.settings = .ok settings ∧
      options = ⟨settings, StandardCipher.decrypt, config.threads, config.criteria⟩ := by
  simp only [Config.options, bind_eq_ok_iff, pure, Except.pure, Except.ok.injEq,
    eq_comm (b := options)]

/-- Where there is a pool for any number of workers, settings that can be read start a session
exactly when they make one. -/
theorem session_unlimited {settings : Option GateSettings}
    (hsettings : config.settings = .ok settings) :
    config.session .unlimited =
      (Session.ofSettings StandardCipher.decrypt settings config.criteria).mapError .setup := by
  have hoptions := options_eq_ok_iff.mpr ⟨settings, hsettings, rfl⟩
  have hworkers := buildWorkers_eq_ok_iff.mpr (staffed_unlimited config)
  simp only [Config.session, hoptions, Session.ofOptions, bind, Except.bind, hworkers]
  cases Session.ofSettings StandardCipher.decrypt settings config.criteria <;> rfl

/-- A session is started as where there is a pool for any number of workers, and then its workers
are built. -/
theorem session_eq (config : Config) (pools : PoolBuilder) :
    config.session pools = (do
      let session ← config.session .unlimited
      (Session.buildWorkers pools config.threads).mapError .ofSession
      return session) := by
  have hworkers := buildWorkers_eq_ok_iff.mpr (staffed_unlimited config)
  unfold Config.session
  cases hoptions : config.options with
  | error fault => rfl
  | ok options =>
    obtain ⟨settings, -, rfl⟩ := options_eq_ok_iff.mp hoptions
    simp only [Session.ofOptions, bind, Except.bind, hworkers]
    cases (Session.ofSettings StandardCipher.decrypt settings config.criteria).mapError
      SessionError.setup with
    | error error => rfl
    | ok session => cases Session.buildWorkers pools config.threads <;> rfl

/-- A configuration starts a session exactly when it has its workers and would start it where
there is a pool for any number of them. -/
theorem session_eq_ok_iff_unlimited : config.session pools = .ok session ↔
    config.Staffed pools ∧ config.session .unlimited = .ok session := by
  rw [session_eq, bind_eq_ok_iff, ← buildWorkers_eq_ok_iff]
  simp only [bind_eq_ok_iff, mapError_eq_ok_iff, pure, Except.pure, Except.ok.injEq]
  constructor
  · rintro ⟨_, hsession, ⟨⟩, hworkers, rfl⟩
    exact ⟨hworkers, hsession⟩
  · rintro ⟨hworkers, hsession⟩
    exact ⟨session, hsession, (), hworkers, rfl⟩

/-- A configuration starts a session exactly when it has its workers and a gate is made from its
settings, and it starts the session of that gate in which nothing has happened. -/
theorem session_eq_ok_iff_gate :
    config.session pools = .ok session ↔ config.Staffed pools ∧
      ∃ settings gate, config.settings = .ok settings ∧
        Gate.ofSettings StandardCipher.decrypt settings = .ok gate ∧
        session = .start gate config.criteria := by
  rw [session_eq_ok_iff_unlimited]
  refine and_congr_right fun _ => ?_
  cases hsettings : config.settings with
  | error fault =>
    have hoptions : config.options = .error fault := by
      simp only [Config.options, hsettings]
      rfl
    simp [Config.session, hoptions]
  | ok settings =>
    rw [session_unlimited hsettings, mapError_eq_ok_iff, Session.ofSettings, map_eq_ok_iff]
    constructor
    · rintro ⟨gate, hgate, rfl⟩
      exact ⟨settings, gate, rfl, hgate, rfl⟩
    · rintro ⟨_, gate, ⟨⟩, hgate, rfl⟩
      exact ⟨gate, hgate, rfl⟩

/-- A configuration without decryption starts a session with a disabled gate, if it has its
workers. -/
theorem session_of_decryption_eq_none (hdecryption : config.decryption = none)
    (hstaffed : config.Staffed pools) :
    config.session pools = .ok (.start .disabled config.criteria) := by
  have hsettings : config.settings = .ok none := by simp only [Config.settings, hdecryption]
  exact session_eq_ok_iff_gate.mpr ⟨hstaffed, none, .disabled, hsettings, rfl, rfl⟩

/-- A configuration with decryption starts a session exactly when it has its workers, its key is
hexadecimal and makes a secret with the seed, and its markers make a rule. -/
theorem session_eq_ok_iff (hdecryption : config.decryption = some settings) :
    config.session pools = .ok session ↔ config.Staffed pools ∧
      ∃ key rule secret, settings.keyBytes = .ok key ∧
        MarkerRule.make settings.protectedMarker settings.syntheticMarker = .ok rule ∧
        Secret.make key settings.seed = .ok secret ∧
        session = .start (.enabled rule secret StandardCipher.decrypt) config.criteria := by
  rw [session_eq_ok_iff_gate]
  simp only [Config.settings, hdecryption, GateConfig.settings, map_eq_ok_iff, bind_eq_ok_iff,
    pure, Except.pure, Except.ok.injEq]
  refine and_congr_right fun _ => ?_
  constructor
  · rintro ⟨-, gate, ⟨-, ⟨key, hkey, rfl⟩, rfl⟩, hgate, rfl⟩
    obtain ⟨rule, secret, hrule, hsecret, rfl⟩ := Gate.ofSettings_eq_ok_iff.mp hgate
    exact ⟨key, rule, secret, hkey, hrule, hsecret, rfl⟩
  · rintro ⟨key, rule, secret, hkey, hrule, hsecret, rfl⟩
    exact ⟨_, _, ⟨_, ⟨key, hkey, rfl⟩, rfl⟩,
      Gate.ofSettings_eq_ok_iff.mpr ⟨rule, secret, hrule, hsecret, rfl⟩, rfl⟩

end Config

end JarCensus
