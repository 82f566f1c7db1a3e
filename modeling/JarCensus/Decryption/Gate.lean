import JarCensus.Decryption.MarkerRule

/-!
# The decryption gate

An enabled gate runs the keyed transform on the bytes of protected paths. Bytes of other
paths, and no bytes at all, pass unchanged, and through a disabled gate everything does.
-/

namespace JarCensus.Decryption

/-- What an enabled gate works with. -/
structure Lock where
  /-- The rule that says which paths are protected. -/
  rule : MarkerRule
  /-- The key of the transform. -/
  key : Secret
  /-- The transform. -/
  transform : Transform

/-- A gate, which is disabled when it has no lock. -/
structure Gate where
  /-- The lock of an enabled gate. -/
  lock : Option Lock

/-- What comes out of a gate. -/
structure Passed where
  /-- The bytes after the gate. -/
  bytes : Bytes
  /-- Whether the transform made them. -/
  decrypted : Bool
  deriving DecidableEq, Repr

namespace Gate

/-- The gate that passes everything unchanged. -/
def disabled : Gate := ⟨none⟩

/-- The gate of a rule, a key and a transform. -/
def enabled (rule : MarkerRule) (key : Secret) (transform : Transform) : Gate :=
  ⟨some ⟨rule, key, transform⟩⟩

/-- Whether the gate has a lock. -/
def isEnabled (gate : Gate) : Bool := gate.lock.isSome

/-- Whether the gate protects a path. -/
def isProtected (gate : Gate) (path : String) : Bool :=
  gate.lock.any (·.rule.protects path)

/-- Runs the transform whatever the path, on bytes known to be protected. -/
def decrypt (gate : Gate) (bytes : Bytes) : Except TransformError Bytes :=
  match gate.lock with
  | some lock => lock.transform lock.key bytes
  | none => .error (.refused "no key material configured")

/-- Passes the bytes of a path through the gate. -/
def apply (gate : Gate) (path : String) (bytes : Bytes) : Except TransformError Passed :=
  match gate.lock with
  | none => .ok ⟨bytes, false⟩
  | some lock =>
    if bytes.isEmpty || !lock.rule.protects path then .ok ⟨bytes, false⟩
    else (⟨·, true⟩) <$> lock.transform lock.key bytes

/-- The diagnostic form of a gate. -/
def shown (gate : Gate) : String :=
  match gate.lock with
  | none => "DecryptionGate(disabled)"
  | some lock =>
    "DecryptionGate \x7b rule: " ++ lock.rule.shown ++ ", key: " ++ Secret.shown ++ " \x7d"

end Gate

end JarCensus.Decryption
