import JarCensus.Proofs.Config.Session
import JarCensus.Proofs.Hex

/-!
# Configurations and the environment

The environment can replace the key and the seed of a configuration, and a key that is not
blank sets up decryption where the configuration does not. Together with the checks of the
settings this comes to one rule: which variables and fields start which session, and which
fault is reported otherwise. The workers come last: only where they cannot be built is there a
fault that the settings do not have.
-/

namespace JarCensus

open Decryption

namespace Config

variable {config : Config} {pools : PoolBuilder} {settings : GateConfig}

/-- A key of the environment is at fault before the marker, the seed and the workers are. -/
example : ((Config.mk (some ⟨"", "", "00", ""⟩) (some 0) none none).applyEnvironment
    fun name => if name = keyVariable then some "0g" else none).session
      (fun _ => .error ["no threads left"]) = .error (.key (.notADigit 0x67 1)) := rfl

/-- The workers of a configuration without decryption are built, one of them at least. -/
example : (Config.mk none (some 0) none none).session
    (fun workers => if workers = 1 then .error ["no threads left"] else .ok ()) =
      .error (.noWorkers ["no threads left"]) := rfl

end Config

end JarCensus
