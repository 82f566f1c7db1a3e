import JarCensus.Census
import JarCensus.ClassFile.Summary
import JarCensus.Session.Failure

/-!
# Scan sessions

A session passes entries through the gate, reads the class, categorizes it and
records it. It keeps the recorded classes, the failures of scanned entries and the
counts of what became of them. After a session is cancelled, scans skip what is left.
-/

namespace JarCensus

/-- The markers, the key and the seed of a session. -/
structure GateSettings where
  /-- The text that protected paths contain. -/
  protectedMarker : String
  /-- The text that exempts a path. -/
  syntheticMarker : String
  /-- The key bytes. -/
  key : Bytes
  /-- The seed text. -/
  seed : String
  deriving DecidableEq, Repr

/-- The diagnostic form of settings, which shows neither key nor seed. -/
def GateSettings.shown (settings : GateSettings) : String :=
  "DecryptionSettings \x7b protected_path_marker: " ++
    Text.Quoted.text settings.protectedMarker ++ ", synthetic_marker: " ++
    Text.Quoted.text settings.syntheticMarker ++ ", .. \x7d"

/-- The gate of the settings. The markers are checked before the key. -/
def Decryption.Gate.ofSettings (transform : Decryption.Transform) :
    Option GateSettings → Except Decryption.SetupError Decryption.Gate
  | none => .ok .disabled
  | some settings => do
    let rule ← Decryption.MarkerRule.make settings.protectedMarker settings.syntheticMarker
    let key ← Decryption.Secret.make settings.key settings.seed
    return .enabled rule key transform

/-- What a session is started with. -/
structure SessionOptions where
  /-- The settings of the gate, which is disabled without them. -/
  decryption : Option GateSettings
  /-- The transform of the gate. -/
  transform : Decryption.Transform
  /-- The number of workers, if the session is to have workers of its own. -/
  threads : Option Nat
  /-- The annotations that decide the category. -/
  criteria : Criteria

/-- What builds a pool of so many workers. When the pool cannot be built, there is a message and
the messages of its causes. -/
abbrev PoolBuilder := Nat → Except (List String) Unit

/-- The builder to which no pool is too large. -/
def PoolBuilder.unlimited : PoolBuilder := fun _ => .ok ()

/-- Why a session does not start. -/
inductive SessionError where
  /-- The key or a marker cannot be used. -/
  | setup (error : Decryption.SetupError)
  /-- The pool of workers cannot be built. -/
  | noWorkers (reasons : List String)
  deriving DecidableEq, Repr

/-- The message of a session error followed by the messages of its causes. -/
def SessionError.chain : SessionError → List String
  | .setup error => [error.message]
  | .noWorkers reasons => "failed to build scan worker pool" :: reasons

/-- What became of the entries of a scan. -/
structure Stats where
  /-- Entries that were looked at. -/
  handled : Nat
  /-- Entries whose class was recorded. -/
  recorded : Nat
  /-- Entries whose class has neither category. -/
  discarded : Nat
  /-- Entries that failed. -/
  failed : Nat
  /-- Entries passed over after a cancel. -/
  skipped : Nat
  deriving DecidableEq, Repr

namespace Stats

/-- The counts of an empty scan. -/
def zero : Stats := ⟨0, 0, 0, 0, 0⟩

/-- The counts of two scans together. -/
def add (x y : Stats) : Stats :=
  ⟨x.handled + y.handled, x.recorded + y.recorded, x.discarded + y.discarded,
    x.failed + y.failed, x.skipped + y.skipped⟩

/-- Adding nothing changes nothing. -/
theorem zero_add (x : Stats) : zero.add x = x := by
  simp [zero, add]

/-- Adding nothing changes nothing. -/
theorem add_zero (x : Stats) : x.add zero = x := by
  simp [zero, add]

/-- Counts may be added in any grouping. -/
theorem add_assoc (x y z : Stats) : (x.add y).add z = x.add (y.add z) := by
  simp [add, Nat.add_assoc]

/-- Counts may be added in any order. -/
theorem add_comm (x y : Stats) : x.add y = y.add x := by
  simp [add, Nat.add_comm]

/-- The sum of counts. -/
def sum (counts : List Stats) : Stats := counts.foldr add zero

/-- The sum of two rows of counts is the sum of their sums. -/
theorem sum_append (xs ys : List Stats) : sum (xs ++ ys) = (sum xs).add (sum ys) := by
  induction xs with
  | nil => exact (zero_add _).symm
  | cons x rest ih =>
    simp only [sum, List.cons_append, List.foldr_cons] at ih ⊢
    rw [ih, add_assoc]

end Stats

/-- What the pipeline says of one class. -/
structure Finding where
  /-- The class name and its annotations. -/
  summary : ClassFile.Summary
  /-- The category of the class. -/
  category : Category
  /-- Whether the transform made the bytes that were read. -/
  decrypted : Bool
  deriving DecidableEq, Repr

/-- What became of one entry that did not fail. -/
inductive Outcome where
  /-- The class was recorded under a category. -/
  | recorded (category : Category)
  /-- The class has neither category. -/
  | discarded
  deriving DecidableEq, Repr

/-- A scan session. -/
structure Session where
  /-- The gate that entries pass. -/
  gate : Decryption.Gate
  /-- The annotations that decide the category. -/
  criteria : Criteria
  /-- The classes recorded so far. -/
  census : Census
  /-- The failures of scanned entries, in order of occurrence. -/
  failures : List Failure
  /-- The counts over all scans. -/
  stats : Stats
  /-- Whether the session is cancelled. -/
  cancelled : Bool

namespace Session

/-- A session in which nothing has happened. -/
def start (gate : Decryption.Gate) (criteria : Criteria) : Session :=
  ⟨gate, criteria, .empty, [], .zero, false⟩

/-- The session of decryption settings, without workers of its own, or why the settings cannot
be used. -/
def ofSettings (transform : Decryption.Transform) (settings : Option GateSettings)
    (criteria : Criteria) : Except Decryption.SetupError Session :=
  (start · criteria) <$> Decryption.Gate.ofSettings transform settings

/-- Builds the workers of a session that has any. There is at least one of them. -/
def buildWorkers (pools : PoolBuilder) : Option Nat → Except SessionError Unit
  | none => .ok ()
  | some threads => (pools (max threads 1)).mapError .noWorkers

/-- The session of options, or why it does not start. The workers are built last. -/
def ofOptions (pools : PoolBuilder) (options : SessionOptions) :
    Except SessionError Session := do
  let session ←
    (ofSettings options.transform options.decryption options.criteria).mapError .setup
  buildWorkers pools options.threads
  return session

/-- Makes later scans skip their entries. -/
def cancel (session : Session) : Session := { session with cancelled := true }

/-- Passes the bytes of a path through the gate, reads the class and categorizes it. -/
def examine (gate : Decryption.Gate) (criteria : Criteria) (path : String)
    (raw : Bytes) : Except EntryFault Finding :=
  match gate.apply path raw with
  | .error error => .error ⟨path, .decryption error⟩
  | .ok passed =>
    match ClassFile.parse passed.bytes with
    | .ok summary => .ok ⟨summary, criteria.categorize summary.annotations, passed.decrypted⟩
    | .error fault =>
      if passed.decrypted then .error ⟨path, .decryption (.rejected fault)⟩
      else .error ⟨path, .malformed fault⟩

/-- Reads an entry and examines it. -/
def examineEntry (gate : Decryption.Gate) (criteria : Criteria) (entry : Entry) :
    Except EntryFault Finding :=
  match entry.stream.read with
  | .error reason => .error ⟨entry.name, .unreadable reason⟩
  | .ok raw => examine gate criteria entry.name raw

/-- The descriptor of an examined entry. -/
def describe (entry : Entry) (finding : Finding) : Descriptor :=
  ⟨finding.summary.name, finding.category, entry.stream, finding.decrypted⟩

/-- Handles one entry: a class of either category is recorded. -/
def handle (session : Session) (entry : Entry) : Session × Except EntryFault Outcome :=
  match examineEntry session.gate session.criteria entry with
  | .error error => (session, .error error)
  | .ok finding =>
    if finding.category = .other then (session, .ok .discarded)
    else
      let census := session.census.record (describe entry finding) entry.isRoot
      ({ session with census }, .ok (.recorded finding.category))

/-- Handles one entry of a scan, keeps its failure, and counts what became of it. -/
def settle (session : Session) (entry : Entry) : Session × Stats :=
  let counted : Stats := { Stats.zero with handled := 1 }
  match session.handle entry with
  | (session, .ok (.recorded _)) => (session, { counted with recorded := 1 })
  | (session, .ok .discarded) => (session, { counted with discarded := 1 })
  | (session, .error error) =>
    let failure : Failure := ⟨error.path, entry.container, entry.isRoot, error⟩
    ({ session with failures := session.failures ++ [failure] },
      { counted with failed := 1 })

/-- The counts of an entry that is passed over. -/
def passedOver : Stats := { Stats.zero with skipped := 1 }

/-- Settles one entry of a scan unless the session is cancelled. -/
def process (session : Session) (entry : Entry) : Session × Stats :=
  if session.cancelled then (session, passedOver) else session.settle entry

/-- Processes entries one after the other. -/
def processAll (session : Session) : List Entry → Session × Stats
  | [] => (session, .zero)
  | entry :: rest =>
    let (session, first) := session.process entry
    let (session, others) := session.processAll rest
    (session, first.add others)

/-- Scans entries in order and adds their counts to those of the session. -/
def scan (session : Session) (entries : List Entry) : Session × Stats :=
  let (session, batch) := session.processAll entries
  ({ session with stats := session.stats.add batch }, batch)

/-- The plain bytes of a recorded class, read from its stream again. -/
def reopen (gate : Decryption.Gate) (descriptor : Descriptor) : Except EntryFault Bytes :=
  match descriptor.stream.read with
  | .error reason => .error ⟨descriptor.name, .unreadable reason⟩
  | .ok raw =>
    if descriptor.decrypted then
      match gate.decrypt raw with
      | .ok plain => .ok plain
      | .error error => .error ⟨descriptor.name, .decryption error⟩
    else .ok raw

end Session

end JarCensus
