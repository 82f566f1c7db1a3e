import JarCensus.Proofs.Session.Settling

/-!
# What a run of a session comes to

Whatever operations a session is used by, and in whatever order, what it holds at the end
is determined by three lists of entries that are read off the operations: those that were
processed, those that were scanned in time, and those that were scanned too late.
-/

namespace JarCensus

namespace Operation

/-- Every scanned entry is scanned either in time or too late. -/
theorem scanned_eq (operations : List Operation) :
    scanned operations = scannedInTime operations ++ scannedLate operations := by
  induction operations with
  | nil => rfl
  | cons operation rest ih => cases operation <;> simp [scanned, scannedInTime, scannedLate, ih]

end Operation

namespace Session

variable {gate : Decryption.Gate} {criteria : Criteria}

/-- A scan of a running session settles its entries and adds their counts. -/
theorem scan_of_running (session : Session) (entries : List Entry)
    (hrunning : session.cancelled = false) :
    session.scan entries =
      ((session.absorb entries).addStats (counts session.gate session.criteria entries 0),
        counts session.gate session.criteria entries 0) := by
  rw [scan, processAll_of_running session entries hrunning]
  rfl

/-- A scan of a cancelled session only counts what it passes over. -/
theorem scan_of_cancelled (session : Session) (entries : List Entry)
    (hcancelled : session.cancelled = true) :
    session.scan entries =
      (session.addStats (counts session.gate session.criteria [] entries.length),
        counts session.gate session.criteria [] entries.length) := by
  rw [scan, processAll_of_cancelled session entries hcancelled]
  rfl

/-- The entries that a scan on one thread processes. -/
def inTime (session : Session) (entries : List Entry) : List Entry :=
  if session.cancelled then [] else entries

/-- A scan on one thread settles the entries that it processes and passes over the others. -/
theorem scan_eq (session : Session) (entries : List Entry) :
    session.scan entries =
      ((session.absorb (session.inTime entries)).addStats
          (counts session.gate session.criteria (session.inTime entries)
            (entries.length - (session.inTime entries).length)),
        counts session.gate session.criteria (session.inTime entries)
          (entries.length - (session.inTime entries).length)) := by
  cases hcancelled : session.cancelled with
  | true =>
    rw [scan_of_cancelled session entries hcancelled]
    simp [inTime, hcancelled, absorb_nil]
  | false =>
    rw [scan_of_running session entries hcancelled]
    simp [inTime, hcancelled]

/-- Once a session is cancelled, only the entries handled one by one are recorded, no failure
is added, and all scanned entries are passed over. -/
theorem run_of_cancelled (session : Session) (operations : List Operation)
    (hcancelled : session.cancelled = true) :
    session.run operations =
      (session.recordEntries (Operation.handledAlone operations)).addStats
        (counts session.gate session.criteria [] (Operation.scanned operations).length) := by
  induction operations generalizing session with
  | nil =>
    rw [Operation.handledAlone, recordEntries_nil]
    exact (addStats_zero session).symm
  | cons operation rest ih =>
    have hstep : session.run (operation :: rest) = (session.perform operation).run rest := rfl
    rw [hstep]
    cases operation with
    | scan entries =>
      have hcounts : counts session.gate session.criteria []
            (Operation.scanned (.scan entries :: rest)).length =
          (counts session.gate session.criteria [] entries.length).add
            (counts session.gate session.criteria [] (Operation.scanned rest).length) := by
        rw [Operation.scanned, List.length_append, ← counts_append, List.append_nil]
      rw [perform, scan_of_cancelled session entries hcancelled, ih (session.addStats _) hcancelled,
        hcounts, addStats_add]
      rfl
    | handle entry =>
      have hrecord : session.recordEntries (Operation.handledAlone (.handle entry :: rest)) =
          (session.recordEntries [entry]).recordEntries (Operation.handledAlone rest) :=
        recordEntries_append session [entry] (Operation.handledAlone rest)
      rw [perform, handle_fst, ih (session.recordEntries [entry]) hcancelled, hrecord]
      rfl
    | inspect path raw => exact ih session hcancelled
    | reopen descriptor => exact ih session hcancelled
    | cancel =>
      have hcancel : session.perform .cancel = session := by
        simp [perform, cancel, ← hcancelled]
      rw [hcancel, ih session hcancelled]
      rfl

/-- The session that a run is to end with when it starts from a running one. -/
def outcome (session : Session) (operations : List Operation) : Session where
  gate := session.gate
  criteria := session.criteria
  census :=
    session.census.recordAll
      ((Operation.processed operations).filterMap (recording? session.gate session.criteria))
  failures :=
    session.failures ++
      (Operation.scannedInTime operations).filterMap (failure? session.gate)
  stats :=
    session.stats.add
      (counts session.gate session.criteria (Operation.scannedInTime operations)
        (Operation.scannedLate operations).length)
  cancelled := Operation.cancels operations

/-- A run of a running session ends as the three lists of entries say. The induction is on the
operations; the first cancel hands over to the run of a cancelled session. -/
theorem run_of_running (session : Session) (operations : List Operation)
    (hrunning : session.cancelled = false) :
    session.run operations = session.outcome operations := by
  induction operations generalizing session with
  | nil =>
    obtain ⟨gate, criteria, census, failures, stats, cancelled⟩ := session
    cases hrunning
    simp [run, outcome, Operation.processed, Operation.scannedInTime, Operation.scannedLate,
      Operation.cancels, Census.recordAll, counts_nil, Stats.add_zero]
  | cons operation rest ih =>
    have hstep : session.run (operation :: rest) = (session.perform operation).run rest := rfl
    rw [hstep]
    cases operation with
    | scan entries =>
      have hcounts : counts session.gate session.criteria
            (entries ++ Operation.scannedInTime rest) (Operation.scannedLate rest).length =
          (counts session.gate session.criteria entries 0).add
            (counts session.gate session.criteria (Operation.scannedInTime rest)
              (Operation.scannedLate rest).length) := by
        rw [← counts_append, Nat.zero_add]
      rw [perform, scan_of_running session entries hrunning,
        ih ((session.absorb entries).addStats _) hrunning]
      simp [outcome, addStats, absorb, recordEntries, Operation.processed,
        Operation.scannedInTime, Operation.scannedLate, Operation.cancels, hcounts,
        Census.recordAll_append, Stats.add_assoc]
    | handle entry =>
      have hrow : (Operation.processed (.handle entry :: rest)) =
          [entry] ++ Operation.processed rest := rfl
      rw [perform, handle_fst, ih (session.recordEntries [entry]) hrunning]
      simp only [outcome, recordEntries, hrow, List.filterMap_append, Census.recordAll_append]
      rfl
    | inspect path raw => exact ih session hrunning
    | reopen descriptor => exact ih session hrunning
    | cancel =>
      rw [perform, run_of_cancelled session.cancel rest rfl]
      simp [outcome, addStats, recordEntries, cancel, Operation.processed,
        Operation.scannedInTime, Operation.scannedLate, Operation.cancels]

/-- What a session has to show for the operations that it was used by. -/
structure Account (gate : Decryption.Gate) (criteria : Criteria)
    (operations : List Operation) (final : Session) : Prop where
  /-- Under every key there is the descriptor of the last processed entry recorded there. -/
  bound : ∀ category isRoot name descriptor,
    final.census.get? category isRoot name = some descriptor ↔
      RecordedLast gate criteria (Operation.processed operations) category isRoot name descriptor
  /-- There is no descriptor under a key at which no processed entry is recorded. -/
  unbound : ∀ category isRoot name,
    final.census.get? category isRoot name = none ↔
      ∀ entry ∈ Operation.processed operations, Misses gate criteria entry category isRoot name
  /-- The failures are those of the entries scanned in time, in their order. -/
  failures : final.failures =
    (Operation.scannedInTime operations).filterMap (failure? gate)
  /-- The counts are those of the entries scanned in time, besides the entries scanned too
  late. -/
  stats : final.stats = counts gate criteria (Operation.scannedInTime operations)
    (Operation.scannedLate operations).length
  /-- Every handled entry was recorded, discarded or failed. -/
  balanced : final.stats.handled =
    final.stats.recorded + final.stats.discarded + final.stats.failed
  /-- As many entries are counted as failed as there are failures. -/
  failed : final.stats.failed = final.failures.length
  /-- Every scanned entry was handled or skipped. -/
  total : final.stats.handled + final.stats.skipped = (Operation.scanned operations).length

/-- Every use of a session, by any operations in any order, is accounted for at its end: in
what it recorded, in the failures it kept and in what it counted. -/
theorem run_account (gate : Decryption.Gate) (criteria : Criteria)
    (operations : List Operation) :
    Account gate criteria operations ((start gate criteria).run operations) := by
  have hempty : ∀ category isRoot name,
      Census.empty.get? category isRoot name = none := Census.get?_empty
  rw [run_of_running (start gate criteria) operations rfl]
  have hstats : ((start gate criteria).outcome operations).stats =
      counts gate criteria (Operation.scannedInTime operations)
        (Operation.scannedLate operations).length := Stats.zero_add _
  have hfailures : ((start gate criteria).outcome operations).failures =
      (Operation.scannedInTime operations).filterMap (failure? gate) :=
    List.nil_append _
  have hbound : ∀ category isRoot name descriptor,
      ((start gate criteria).outcome operations).census.get? category isRoot name =
          some descriptor ↔
        RecordedLast gate criteria (Operation.processed operations) category isRoot name
          descriptor := by
    intro category isRoot name descriptor
    refine (get?_recorded_iff Census.empty _ descriptor).trans ?_
    simp [hempty, start]
  constructor
  case bound => exact hbound
  case unbound =>
    intro category isRoot name
    constructor
    · intro hnone entry hentry descriptor hrecords
      obtain ⟨last, hlast⟩ := exists_recordedLast hentry hrecords
      rw [← hbound, hnone] at hlast
      cases hlast
    · intro hmisses
      exact (get?_of_misses Census.empty _ hmisses).trans (hempty ..)
  case failures => exact hfailures
  case stats => exact hstats
  case balanced =>
    rw [hstats]
    exact counts_balanced _ _
  case failed =>
    rw [hstats, hfailures]
    exact counts_failed _ _
  case total =>
    rw [hstats, Operation.scanned_eq, List.length_append]
    rfl

end Session

end JarCensus
