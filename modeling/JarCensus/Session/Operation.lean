import JarCensus.Session.Basic

/-!
# Runs of a session

A session is used by operations, one after the other. Only scans and single entries can
change what is recorded, and a scan no longer does once the session is cancelled.
-/

namespace JarCensus

/-- A use of a session. -/
inductive Operation where
  /-- Scans entries. -/
  | scan (entries : List Entry)
  /-- Handles one entry, whether or not the session is cancelled. -/
  | handle (entry : Entry)
  /-- Inspects bytes under a path. -/
  | inspect (path : String) (raw : Bytes)
  /-- Reads a recorded class again. -/
  | reopen (descriptor : Descriptor)
  /-- Cancels the session. -/
  | cancel

namespace Session

/-- The session after an operation. -/
def perform (session : Session) : Operation → Session
  | .scan entries => (session.scan entries).1
  | .handle entry => (session.handle entry).1
  | .inspect .. | .reopen _ => session
  | .cancel => session.cancel

/-- The session after operations. -/
def run (session : Session) (operations : List Operation) : Session :=
  operations.foldl perform session

/-- What is found of an entry that can be read, whose bytes the gate lets through, and that is
then a class. -/
def finding? (gate : Decryption.Gate) (criteria : Criteria) (entry : Entry) :
    Option Finding := do
  let stored ← entry.stream.read.toOption
  let passed ← (gate.apply entry.name stored).toOption
  let summary ← (ClassFile.parse passed.bytes).toOption
  return ⟨summary, criteria.categorize summary.annotations, passed.decrypted⟩

/-- Why an entry fails, if it does: the stream cannot be read, or else the gate does not open
the bytes, or else what it lets through is no class file, whether or not it was transformed. -/
def cause? (gate : Decryption.Gate) (entry : Entry) : Option EntryCause :=
  match entry.stream.read with
  | .error reason => some (.unreadable reason)
  | .ok stored =>
    match gate.apply entry.name stored with
    | .error error => some (.decryption error)
    | .ok ⟨bytes, decrypted⟩ =>
      match ClassFile.parse bytes, decrypted with
      | .error fault, true => some (.decryption (.rejected fault))
      | .error fault, false => some (.malformed fault)
      | .ok _, _ => none

/-- The descriptor and the origin under which an entry is recorded, if it is: the class has a
category, and the descriptor has its name and the stream of the entry. -/
def recording? (gate : Decryption.Gate) (criteria : Criteria) (entry : Entry) :
    Option (Descriptor × Bool) :=
  match finding? gate criteria entry with
  | none => none
  | some ⟨summary, category, decrypted⟩ =>
    if category = .other then none
    else some (⟨summary.name, category, entry.stream, decrypted⟩, entry.isRoot)

/-- The failure that a scan keeps of an entry, if it fails: the name, the container and
the origin of the entry, and what went wrong. -/
def failure? (gate : Decryption.Gate) (entry : Entry) : Option Failure :=
  (cause? gate entry).map fun cause =>
    ⟨entry.name, entry.container, entry.isRoot, ⟨entry.name, cause⟩⟩

/-- Whether an entry holds a class of neither category. -/
def isDiscarded (gate : Decryption.Gate) (criteria : Criteria) (entry : Entry) : Bool :=
  (finding? gate criteria entry).any (·.category = .other)

end Session

namespace Operation

/-- The entries of all scans. -/
def scanned : List Operation → List Entry
  | [] => []
  | .scan entries :: rest => entries ++ scanned rest
  | _ :: rest => scanned rest

/-- The entries of the scans before the first cancel. -/
def scannedInTime : List Operation → List Entry
  | [] => []
  | .scan entries :: rest => entries ++ scannedInTime rest
  | .cancel :: _ => []
  | _ :: rest => scannedInTime rest

/-- The entries of the scans after the first cancel. -/
def scannedLate : List Operation → List Entry
  | [] => []
  | .cancel :: rest => scanned rest
  | _ :: rest => scannedLate rest

/-- Whether the session is cancelled by one of the operations. -/
def cancels : List Operation → Bool
  | [] => false
  | .cancel :: _ => true
  | _ :: rest => cancels rest

/-- The entries that are handled one by one. -/
def handledAlone : List Operation → List Entry
  | [] => []
  | .handle entry :: rest => entry :: handledAlone rest
  | _ :: rest => handledAlone rest

/-- The entries that are processed, in order: those of scans before the first cancel, and
those handled one by one at any time. -/
def processed : List Operation → List Entry
  | [] => []
  | .scan entries :: rest => entries ++ processed rest
  | .handle entry :: rest => entry :: processed rest
  | .cancel :: rest => handledAlone rest
  | .inspect .. :: rest | .reopen _ :: rest => processed rest

end Operation

end JarCensus
