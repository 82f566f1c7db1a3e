import JarCensus.Decryption.Key
import JarCensus.Text.Quoted

/-!
# Which paths are protected

A path is protected when it contains the protected marker and not the synthetic
marker. Paths are compared in one spelling: with forward slashes and without any `/`
or `./` in front.
-/

namespace JarCensus.Decryption

/-- The path with forward slashes for backslashes. -/
def forwardSlashes (path : List Char) : List Char :=
  path.map fun c => if c == '\\' then '/' else c

/-- The path without the `/` and `./` pieces in front. -/
def dropLeading : List Char → List Char
  | '.' :: '/' :: rest => dropLeading rest
  | '/' :: rest => dropLeading rest
  | path => path

/-- The one spelling in which paths are compared. -/
def commonChars (path : List Char) : List Char :=
  dropLeading (forwardSlashes path)

/-- The one spelling of a path. -/
def commonSpelling (path : String) : String :=
  String.ofList (commonChars path.toList)

/-- Whether a text occurs within another. -/
def occursIn (part : List Char) : List Char → Bool
  | [] => part.isEmpty
  | c :: rest => part.isPrefixOf (c :: rest) || occursIn part rest

/-- A text occurs within another exactly when it is one of its infixes. -/
theorem occursIn_iff {part whole : List Char} : occursIn part whole = true ↔ part <:+: whole := by
  induction whole with
  | nil => simp [occursIn]
  | cons c rest ih => simp [occursIn, ih, List.infix_cons_iff]

/-- The markers that decide which paths are protected. -/
structure MarkerRule where
  /-- The text that protected paths contain. -/
  protectedMarker : String
  /-- The text that exempts a path, and none when it is empty. -/
  syntheticMarker : String
  /-- The protected marker is not empty. -/
  protectedMarker_ne_empty : protectedMarker ≠ ""
  deriving Repr

namespace MarkerRule

/-- The rule of two markers. -/
def make (protectedMarker syntheticMarker : String) : Except SetupError MarkerRule :=
  if h : protectedMarker = "" then .error .noMarker
  else .ok ⟨protectedMarker, syntheticMarker, h⟩

/-- Whether the rule protects a path. -/
def protects (rule : MarkerRule) (path : String) : Bool :=
  let spelling := commonChars path.toList
  occursIn rule.protectedMarker.toList spelling &&
    (rule.syntheticMarker.isEmpty || !occursIn rule.syntheticMarker.toList spelling)

/-- The diagnostic form of a rule. -/
def shown (rule : MarkerRule) : String :=
  "PathRule \x7b protected_marker: " ++ Text.Quoted.text rule.protectedMarker ++
    ", synthetic_marker: " ++ Text.Quoted.text rule.syntheticMarker ++ " \x7d"

end MarkerRule

end JarCensus.Decryption
