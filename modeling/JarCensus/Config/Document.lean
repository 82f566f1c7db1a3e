import JarCensus.Config.Basic
import JarCensus.Json.Spelling

/-!
# Documents of configurations

A document describes a configuration when it is an object of its fields in any order, each
at most once. A field that is absent from the configuration is null or left out, and
markers and a seed that have their standard values may be left out. The decryption settings
may also be the row of their texts.
-/

namespace JarCensus

open Json (Tree)

variable {α : Type}

/-- Whether all names of fields are from a list and no two are the same. -/
def NamedFrom (names : List String) (fields : List (String × Tree)) : Prop :=
  (fields.map Prod.fst).Nodup ∧ ∀ field ∈ fields, field.1 ∈ names

/-- Whether the field of a name gives a value. A field that is left out gives the standard
value, if there is one. -/
def Gives (fields : List (String × Tree)) (name : String) (describes : α → Tree → Prop)
    (standard : Option α) (value : α) : Prop :=
  match fields.lookup name with
  | some tree => describes value tree
  | none => standard = some value

/-- Whether a tree describes a value that may be absent. -/
inductive Nullable (describes : α → Tree → Prop) : Option α → Tree → Prop where
  /-- Null describes the absent value. -/
  | null : Nullable describes none .null
  /-- What describes a value describes it also as one that may be absent. -/
  | value {value : α} {tree : Tree} : describes value tree →
    Nullable describes (some value) tree

/-- Whether a tree is a text. -/
def IsText (text : String) (tree : Tree) : Prop := tree = .string text

/-- Whether a tree is a row of texts. -/
def IsTexts (texts : List String) (tree : Tree) : Prop := tree = .ofStrings texts

/-- Whether a tree is a natural number of 64 bits. -/
def IsCount (count : Nat) (tree : Tree) : Prop :=
  tree = .number (.ofNat count) ∧ count < Bytes.end64

/-- Whether fields are given ones and one more, which has an unknown name or one that is
given already. -/
def OneTooMany (names : List String) (given fields : List (String × Tree)) : Prop :=
  ∃ name tree, fields.Perm ((name, tree) :: given) ∧
    (name ∉ names ∨ name ∈ given.map Prod.fst)

namespace GateConfig

/-- The names of the fields. -/
def fieldNames : List String :=
  ["protected_path_marker", "synthetic_marker", "decryption_key", "key_derivation_seed"]

/-- Whether fields give the decryption settings. -/
structure GivenBy (config : GateConfig) (fields : List (String × Tree)) : Prop where
  namedFrom : NamedFrom fieldNames fields
  protectedMarker : Gives fields "protected_path_marker" IsText (some standardProtectedMarker)
    config.protectedMarker
  syntheticMarker : Gives fields "synthetic_marker" IsText (some standardSyntheticMarker)
    config.syntheticMarker
  key : Gives fields "decryption_key" IsText none config.key
  seed : Gives fields "key_derivation_seed" IsText (some "") config.seed

/-- Whether a tree describes the decryption settings. -/
inductive Describes (config : GateConfig) : Tree → Prop where
  /-- The object of their fields. -/
  | object {fields : List (String × Tree)} : config.GivenBy fields →
    config.Describes (.object fields)
  /-- The row of their texts, of which an empty seed may be left out. -/
  | row {seed : List String} : seed = [config.seed] ∨ (seed = [] ∧ config.seed = "") →
    config.Describes
      (.ofStrings ([config.protectedMarker, config.syntheticMarker, config.key] ++ seed))

end GateConfig

namespace Config

/-- The names of the fields. -/
def fieldNames : List String :=
  ["decryption", "threads", "model_annotations", "converter_annotations"]

/-- Whether fields give a configuration. -/
structure GivenBy (config : Config) (fields : List (String × Tree)) : Prop where
  namedFrom : NamedFrom fieldNames fields
  decryption : Gives fields "decryption" (Nullable GateConfig.Describes) (some none)
    config.decryption
  threads : Gives fields "threads" (Nullable IsCount) (some none) config.threads
  modelAnnotations : Gives fields "model_annotations" (Nullable IsTexts) (some none)
    config.modelAnnotations
  converterAnnotations : Gives fields "converter_annotations" (Nullable IsTexts) (some none)
    config.converterAnnotations

/-- Whether fields are those of a configuration with a single flaw. -/
inductive SpoiledBy (config : Config) (fields : List (String × Tree)) : Prop where
  /-- One field too many. -/
  | field {given : List (String × Tree)} : config.GivenBy given →
    OneTooMany fieldNames given fields → SpoiledBy config fields
  /-- One field too many among the decryption settings. -/
  | decryptionField {inner spoiled others : List (String × Tree)} :
    config.GivenBy (("decryption", .object inner) :: others) →
    OneTooMany GateConfig.fieldNames inner spoiled →
    fields.Perm (("decryption", .object spoiled) :: others) → SpoiledBy config fields
  /-- No key among the decryption settings. -/
  | key {inner spoiled others : List (String × Tree)} {tree : Tree} :
    config.GivenBy (("decryption", .object inner) :: others) →
    inner.Perm (("decryption_key", tree) :: spoiled) →
    fields.Perm (("decryption", .object spoiled) :: others) → SpoiledBy config fields

end Config

end JarCensus
