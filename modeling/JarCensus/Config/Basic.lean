import JarCensus.Hex
import JarCensus.Json.Value
import JarCensus.Session.Basic
import JarCensus.Text.Blank

/-!
# Configurations

A configuration may set up decryption, a number of workers and the annotations of each
category. What it leaves out has a standard value.
-/

namespace JarCensus

/-- The part of a configuration that sets up decryption. -/
structure GateConfig where
  /-- The text that protected paths contain. -/
  protectedMarker : String
  /-- The text that exempts a path. -/
  syntheticMarker : String
  /-- The key in hexadecimal. -/
  key : String
  /-- The seed that goes with the key. -/
  seed : String
  deriving DecidableEq, Repr

namespace GateConfig

/-- The marker of protected paths when none is given. -/
def standardProtectedMarker : String := "com/seassoon/"

/-- The marker of exempted paths when none is given. -/
def standardSyntheticMarker : String := "$$"

/-- The standard markers with a key and no seed. -/
def ofKey (key : String) : GateConfig :=
  ⟨standardProtectedMarker, standardSyntheticMarker, key, ""⟩

/-- The diagnostic form, which shows neither key nor seed. -/
def shown (config : GateConfig) : String :=
  "DecryptionConfig \x7b protected_path_marker: " ++ Text.Quoted.text config.protectedMarker ++
    ", synthetic_marker: " ++ Text.Quoted.text config.syntheticMarker ++ ", .. \x7d"

/-- The written form. -/
def toJson (config : GateConfig) : Json.Value :=
  .object [("protected_path_marker", .string config.protectedMarker),
    ("synthetic_marker", .string config.syntheticMarker),
    ("decryption_key", .string config.key), ("key_derivation_seed", .string config.seed)]

/-- The key bytes. Blanks around the key are ignored. -/
def keyBytes (config : GateConfig) : Except Hex.Fault Bytes :=
  Hex.decode (Text.Utf8.encode (Text.trim config.key.toList))

/-- The settings of a session. -/
def settings (config : GateConfig) : Except Hex.Fault GateSettings := do
  let key ← config.keyBytes
  return ⟨config.protectedMarker, config.syntheticMarker, key, config.seed⟩

end GateConfig

/-- A configuration. -/
structure Config where
  /-- How entries are decrypted, if they are. -/
  decryption : Option GateConfig
  /-- The number of workers. -/
  threads : Option Nat
  /-- The annotations of models. -/
  modelAnnotations : Option (List String)
  /-- The annotations of converters. -/
  converterAnnotations : Option (List String)
  deriving DecidableEq, Repr

namespace Config

/-- The configuration that leaves everything out. -/
def standard : Config := ⟨none, none, none, none⟩

/-- The diagnostic form. -/
def shown (config : Config) : String :=
  "ScanConfig \x7b decryption: " ++
    Text.Quoted.optional (config.decryption.map (·.shown)) ++ ", threads: " ++
    Text.Quoted.optional (config.threads.map (toString ·)) ++ ", model_annotations: " ++
    Text.Quoted.optional (config.modelAnnotations.map Text.Quoted.texts) ++
    ", converter_annotations: " ++
    Text.Quoted.optional (config.converterAnnotations.map Text.Quoted.texts) ++ " \x7d"

/-- The written form. -/
def toJson (config : Config) : Json.Value :=
  .object
    [("decryption", (config.decryption.map (·.toJson)).getD .null),
      ("threads", (config.threads.map .number).getD .null),
      ("model_annotations", (config.modelAnnotations.map .ofStrings).getD .null),
      ("converter_annotations", (config.converterAnnotations.map .ofStrings).getD .null)]

/-- The criteria of the configured annotations. -/
def criteria (config : Config) : Criteria :=
  ⟨config.modelAnnotations.getD Criteria.standardModel,
    config.converterAnnotations.getD Criteria.standardConverter⟩

/-- The settings of a session, if decryption is configured. -/
def settings (config : Config) : Except Hex.Fault (Option GateSettings) :=
  match config.decryption with
  | none => .ok none
  | some decryption => some <$> decryption.settings

/-- The options of a session. -/
def options (config : Config) : Except Hex.Fault SessionOptions := do
  return ⟨← config.settings, Decryption.StandardCipher.decrypt, config.threads, config.criteria⟩

/-- Why a configuration does not start a session. -/
inductive StartError where
  /-- The key is not hexadecimal. -/
  | key (fault : Hex.Fault)
  /-- The key or a marker cannot be used. -/
  | setup (error : Decryption.SetupError)
  /-- The pool of workers cannot be built. -/
  | noWorkers (reasons : List String)
  deriving DecidableEq, Repr

/-- The start error of a session error. -/
def StartError.ofSession : SessionError → StartError
  | .setup error => .setup error
  | .noWorkers reasons => .noWorkers reasons

/-- The message for a key that is not hexadecimal. -/
def badKeyMessage : String := "decryption_key is not valid hex"

/-- What is said first of a configuration that does not start a session. -/
def notStartedMessage : String := "Invalid scan configuration"

/-- The message of a start error followed by the messages of its causes. -/
def StartError.chain : StartError → List String
  | .key fault => [badKeyMessage, fault.message]
  | .setup error => notStartedMessage :: (SessionError.setup error).chain
  | .noWorkers reasons => notStartedMessage :: (SessionError.noWorkers reasons).chain

/-- The session that the configuration starts, with the pools of workers that can be built. -/
def session (config : Config) (pools : PoolBuilder := .unlimited) : Except StartError Session :=
  match config.options with
  | .error fault => .error (.key fault)
  | .ok options => (Session.ofOptions pools options).mapError .ofSession

/-- The name of the variable that holds the path of the configuration. -/
def pathVariable : String := "ENTITY_SCAN_CONFIG"

/-- The name of the variable that holds a key. -/
def keyVariable : String := "ENTITY_SCAN_KEY"

/-- The name of the variable that holds a seed. -/
def seedVariable : String := "ENTITY_SCAN_SEED"

/-- The configuration with a key in place of its own, or with decryption set up for
it. -/
def withKey (config : Config) (key : String) : Config :=
  { config with
    decryption :=
      match config.decryption with
      | some decryption => some { decryption with key }
      | none => some (.ofKey key) }

/-- The configuration with a seed in place of its own, if decryption is set up. -/
def withSeed (config : Config) (seed : String) : Config :=
  { config with decryption := config.decryption.map ({ · with seed }) }

/-- The configuration after the variables of the environment. A key that is blank is
not one. -/
def applyEnvironment (config : Config) (lookup : String → Option String) : Config :=
  let config :=
    match lookup keyVariable with
    | some key => if key.toList.all Text.isBlank then config else config.withKey key
    | none => config
  match lookup seedVariable with
  | some seed => config.withSeed seed
  | none => config

end Config

end JarCensus
