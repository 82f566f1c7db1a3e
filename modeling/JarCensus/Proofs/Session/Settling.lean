import JarCensus.Proofs.Census
import JarCensus.Proofs.Success
import JarCensus.Session.Operation

/-!
# What settled entries do to a session

An entry is recorded, discarded or failed, and this depends on the gate and the
criteria alone. A session therefore absorbs a row of entries by recording what they
are recorded as and keeping their failures, and the counts of the row follow from the
entries without looking at the session.
-/

namespace JarCensus.Session

variable {gate : Decryption.Gate} {criteria : Criteria}

/-- A failed examination names the path it was given. -/
theorem examine_error_path {path : String} {raw : Bytes} {error : EntryFault}
    (herror : examine gate criteria path raw = .error error) : error.path = path := by
  unfold examine at herror
  split at herror
  · cases herror
    rfl
  · split at herror
    · cases herror
    · split at herror <;> cases herror <;> rfl

/-- The failure of an entry is filed under the name of the entry. -/
theorem examineEntry_error_path {entry : Entry} {error : EntryFault}
    (herror : examineEntry gate criteria entry = .error error) : error.path = entry.name := by
  unfold examineEntry at herror
  split at herror
  · cases herror
    rfl
  · exact examine_error_path herror

/-- An entry that fails does so for the cause of its first stage that does. -/
theorem cause?_of_error {entry : Entry} {error : EntryFault}
    (herror : examineEntry gate criteria entry = .error error) :
    cause? gate entry = some error.cause := by
  unfold examineEntry at herror
  cases hread : entry.stream.read with
  | error reason =>
    rw [hread] at herror
    cases herror
    simp only [cause?, hread]
  | ok stored =>
    simp only [hread, examine] at herror
    cases happly : gate.apply entry.name stored with
    | error refusal =>
      rw [happly] at herror
      cases herror
      simp only [cause?, hread, happly]
    | ok passed =>
      obtain ⟨bytes, decrypted⟩ := passed
      simp only [happly] at herror
      cases hparse : ClassFile.parse bytes with
      | ok summary =>
        rw [hparse] at herror
        cases herror
      | error fault =>
        rw [hparse] at herror
        cases decrypted <;> cases herror <;> simp only [cause?, hread, happly, hparse]

/-- An entry that does not fail has gone through all stages. -/
theorem examineEntry_eq_ok_iff {entry : Entry} {finding : Finding} :
    examineEntry gate criteria entry = .ok finding ↔
      ∃ stored passed, entry.stream.read = .ok stored ∧
        gate.apply entry.name stored = .ok passed ∧
        ClassFile.parse passed.bytes = .ok finding.summary ∧
        finding.category = criteria.categorize finding.summary.annotations ∧
        finding.decrypted = passed.decrypted := by
  constructor
  · intro hok
    unfold examineEntry at hok
    split at hok
    · cases hok
    · rename_i stored hread
      unfold examine at hok
      split at hok
      · cases hok
      · rename_i passed hpassed
        split at hok
        · rename_i summary hparse
          cases hok
          exact ⟨stored, passed, hread, hpassed, hparse, rfl, rfl⟩
        · split at hok <;> cases hok
  · obtain ⟨summary, category, decrypted⟩ := finding
    rintro ⟨stored, passed, hread, happly, hparse, hcategory, hdecrypted⟩
    simp only at hparse hcategory hdecrypted
    simp only [examineEntry, hread, examine, happly, hparse, hcategory, hdecrypted]

/-- What is found of an entry is what has gone through all stages. -/
theorem finding?_eq_some_iff {entry : Entry} {finding : Finding} :
    finding? gate criteria entry = some finding ↔
      examineEntry gate criteria entry = .ok finding := by
  obtain ⟨summary, category, decrypted⟩ := finding
  simp only [finding?, Option.bind_eq_bind, Option.bind_eq_some_iff, toOption_eq_some_iff, pure,
    Option.some.injEq, Finding.mk.injEq, examineEntry_eq_ok_iff, eq_comm (a := category),
    eq_comm (a := decrypted)]
  constructor
  · rintro ⟨stored, hread, passed, happly, summary', hparse, rfl, rfl, rfl⟩
    exact ⟨stored, passed, hread, happly, hparse, rfl, rfl⟩
  · rintro ⟨stored, passed, hread, happly, hparse, rfl, rfl⟩
    exact ⟨stored, hread, passed, happly, summary, hparse, rfl, rfl, rfl⟩

/-- Nothing is found of an entry that fails. -/
theorem finding?_of_error {entry : Entry} {error : EntryFault}
    (herror : examineEntry gate criteria entry = .error error) :
    finding? gate criteria entry = none := by
  cases hfinding : finding? gate criteria entry with
  | none => rfl
  | some finding => cases herror.symm.trans (finding?_eq_some_iff.mp hfinding)

/-- An entry of which something is found does not fail. -/
theorem cause?_of_ok {entry : Entry} {finding : Finding}
    (hok : examineEntry gate criteria entry = .ok finding) : cause? gate entry = none := by
  obtain ⟨stored, passed, hread, happly, hparse, -, -⟩ := examineEntry_eq_ok_iff.mp hok
  simp only [cause?, hread, happly, hparse]

/-- An entry that fails is not recorded. -/
theorem recording?_of_error {entry : Entry} {error : EntryFault}
    (herror : examineEntry gate criteria entry = .error error) :
    recording? gate criteria entry = none := by
  simp only [recording?, finding?_of_error herror]

/-- An entry that does not fail is recorded unless its class has neither category. -/
theorem recording?_of_ok {entry : Entry} {finding : Finding}
    (hok : examineEntry gate criteria entry = .ok finding) :
    recording? gate criteria entry =
      if finding.category = .other then none
      else some (describe entry finding, entry.isRoot) := by
  simp only [recording?, finding?_eq_some_iff.mpr hok, describe]

/-- An entry that fails leaves its failure. -/
theorem failure?_of_error {entry : Entry} {error : EntryFault}
    (herror : examineEntry gate criteria entry = .error error) :
    failure? gate entry = some ⟨entry.name, entry.container, entry.isRoot, error⟩ := by
  obtain ⟨path, cause⟩ := error
  obtain rfl : path = entry.name := examineEntry_error_path herror
  rw [failure?, cause?_of_error herror]
  rfl

/-- An entry that does not fail leaves no failure. -/
theorem failure?_of_ok {entry : Entry} {finding : Finding}
    (hok : examineEntry gate criteria entry = .ok finding) : failure? gate entry = none := by
  rw [failure?, cause?_of_ok hok]
  rfl

/-- An entry that fails is not discarded. -/
theorem isDiscarded_of_error {entry : Entry} {error : EntryFault}
    (herror : examineEntry gate criteria entry = .error error) :
    isDiscarded gate criteria entry = false := by
  rw [isDiscarded, finding?_of_error herror]
  rfl

/-- An entry that does not fail is discarded when its class has neither category. -/
theorem isDiscarded_of_ok {entry : Entry} {finding : Finding}
    (hok : examineEntry gate criteria entry = .ok finding) :
    isDiscarded gate criteria entry = decide (finding.category = .other) := by
  rw [isDiscarded, finding?_eq_some_iff.mpr hok]
  rfl

/-- The counts of entries that are settled beside others that are passed over. -/
def counts (gate : Decryption.Gate) (criteria : Criteria) (settled : List Entry)
    (skipped : Nat) : Stats where
  handled := settled.length
  recorded := settled.countP fun entry => (recording? gate criteria entry).isSome
  discarded := settled.countP (isDiscarded gate criteria)
  failed := settled.countP fun entry => (failure? gate entry).isSome
  skipped := skipped

/-- Counts of nothing are zero. -/
theorem counts_nil : counts gate criteria [] 0 = .zero := rfl

/-- Counts of two rows of entries add up. -/
theorem counts_append (first second : List Entry) (skipped more : Nat) :
    counts gate criteria (first ++ second) (skipped + more) =
      (counts gate criteria first skipped).add (counts gate criteria second more) := by
  simp [counts, Stats.add]

/-- Counts do not depend on the order of the entries. -/
theorem counts_perm {first second : List Entry} (hperm : first.Perm second) (skipped : Nat) :
    counts gate criteria first skipped = counts gate criteria second skipped := by
  simp only [counts, hperm.length_eq, hperm.countP_eq]

/-- An entry ends in exactly one of three ways. -/
theorem one_fate (gate : Decryption.Gate) (criteria : Criteria) (entry : Entry) :
    (if (recording? gate criteria entry).isSome then 1 else 0) +
      (if isDiscarded gate criteria entry then 1 else 0) +
        (if (failure? gate entry).isSome then 1 else 0) = 1 := by
  cases hexamined : examineEntry gate criteria entry with
  | error error =>
    simp [recording?_of_error hexamined, isDiscarded_of_error hexamined,
      failure?_of_error hexamined]
  | ok finding =>
    rw [recording?_of_ok hexamined, isDiscarded_of_ok hexamined, failure?_of_ok hexamined]
    by_cases hother : finding.category = .other <;> simp [hother]

/-- The entries that count as handled are those that count as recorded, as discarded and as
failed, taken together. -/
theorem counts_balanced (settled : List Entry) (skipped : Nat) :
    (counts gate criteria settled skipped).handled =
      (counts gate criteria settled skipped).recorded +
        (counts gate criteria settled skipped).discarded +
          (counts gate criteria settled skipped).failed := by
  induction settled with
  | nil => rfl
  | cons entry rest ih =>
    have hfate := one_fate gate criteria entry
    simp only [counts, List.length_cons, List.countP_cons] at ih ⊢
    omega

/-- As many entries count as failed as leave a failure. -/
theorem counts_failed (settled : List Entry) (skipped : Nat) :
    (counts gate criteria settled skipped).failed =
      (settled.filterMap (failure? gate)).length :=
  (List.length_filterMap_eq_countP ..).symm

/-- The session after the classes of entries are recorded. -/
def recordEntries (session : Session) (entries : List Entry) : Session :=
  { session with
    census :=
      session.census.recordAll
        (entries.filterMap (recording? session.gate session.criteria)) }

/-- The session after entries are settled, without their counts. -/
def absorb (session : Session) (entries : List Entry) : Session :=
  { session.recordEntries entries with
    failures :=
      session.failures ++ entries.filterMap (failure? session.gate) }

/-- Entries may be recorded row by row. -/
theorem recordEntries_append (session : Session) (first second : List Entry) :
    session.recordEntries (first ++ second) =
      (session.recordEntries first).recordEntries second := by
  simp [recordEntries, Census.recordAll_append]

/-- The session after counts are added to its own. -/
def addStats (session : Session) (batch : Stats) : Session :=
  { session with stats := session.stats.add batch }

/-- Adding no counts changes nothing. -/
theorem addStats_zero (session : Session) : session.addStats .zero = session := by
  simp [addStats, Stats.add_zero]

/-- Counts may be added row by row. -/
theorem addStats_add (session : Session) (first second : Stats) :
    session.addStats (first.add second) = (session.addStats first).addStats second := by
  simp [addStats, Stats.add_assoc]

/-- Recording no entry changes nothing. -/
theorem recordEntries_nil (session : Session) : session.recordEntries [] = session := by
  simp [recordEntries, Census.recordAll]

/-- Absorbing no entry changes nothing. -/
theorem absorb_nil (session : Session) : session.absorb [] = session := by
  simp [absorb, recordEntries, Census.recordAll]

/-- Entries may be absorbed row by row. -/
theorem absorb_append (session : Session) (first second : List Entry) :
    session.absorb (first ++ second) = (session.absorb first).absorb second := by
  simp [absorb, recordEntries, Census.recordAll_append]

/-- A handled entry is recorded, when it is recorded at all, and leaves no failure. -/
theorem handle_fst (session : Session) (entry : Entry) :
    (session.handle entry).1 = session.recordEntries [entry] := by
  unfold handle
  cases hexamined : examineEntry session.gate session.criteria entry with
  | error error => simp [recordEntries, recording?_of_error hexamined, Census.recordAll]
  | ok finding =>
    by_cases hother : finding.category = .other <;>
      simp [recordEntries, recording?_of_ok hexamined, hother, Census.recordAll]

/-- A settled entry is absorbed and counted. -/
theorem settle_eq (session : Session) (entry : Entry) :
    session.settle entry =
      (session.absorb [entry], counts session.gate session.criteria [entry] 0) := by
  unfold settle handle
  cases hexamined : examineEntry session.gate session.criteria entry with
  | error error =>
    simp [absorb, recordEntries, counts, recording?_of_error hexamined, failure?_of_error hexamined,
      isDiscarded_of_error hexamined, examineEntry_error_path hexamined, Census.recordAll,
      Stats.zero]
  | ok finding =>
    by_cases hother : finding.category = .other <;>
      simp [absorb, recordEntries, counts, recording?_of_ok hexamined,
        failure?_of_ok hexamined, isDiscarded_of_ok hexamined, hother, Census.recordAll,
        Stats.zero]

/-- A running session settles all entries of a row. -/
theorem processAll_of_running (session : Session) (entries : List Entry)
    (hrunning : session.cancelled = false) :
    session.processAll entries =
      (session.absorb entries, counts session.gate session.criteria entries 0) := by
  induction entries generalizing session with
  | nil => rw [absorb_nil, counts_nil, processAll]
  | cons entry rest ih =>
    have hprocess : session.process entry = session.settle entry := by simp [process, hrunning]
    have hrest := ih (session.absorb [entry]) hrunning
    have habsorb : session.absorb (entry :: rest) = (session.absorb [entry]).absorb rest :=
      absorb_append session [entry] rest
    have hcounts : counts session.gate session.criteria (entry :: rest) 0 =
        (counts session.gate session.criteria [entry] 0).add
          (counts session.gate session.criteria rest 0) := counts_append [entry] rest 0 0
    simp only [processAll, hprocess, settle_eq, hrest]
    rw [hcounts, habsorb]
    rfl

/-- A cancelled session passes over all entries of a row. -/
theorem processAll_of_cancelled (session : Session) (entries : List Entry)
    (hcancelled : session.cancelled = true) :
    session.processAll entries =
      (session, counts session.gate session.criteria [] entries.length) := by
  induction entries with
  | nil => rfl
  | cons entry rest ih =>
    have hprocess : session.process entry = (session, passedOver) := by
      simp [process, hcancelled]
    simp only [processAll, hprocess, ih]
    simp [counts, passedOver, Stats.add, Stats.zero, Nat.add_comm]

/-- That an entry is recorded under a key as a descriptor: it can be read, the gate lets its
bytes through, and what comes out is a class of the name, which the criteria put in the category.
The descriptor has the stream of the entry and says whether the bytes were transformed. -/
def Records (gate : Decryption.Gate) (criteria : Criteria) (entry : Entry)
    (category : Category) (isRoot : Bool) (name : String) (descriptor : Descriptor) : Prop :=
  ∃ stored passed summary, entry.stream.read = .ok stored ∧
    gate.apply entry.name stored = .ok passed ∧ ClassFile.parse passed.bytes = .ok summary ∧
    criteria.categorize summary.annotations = category ∧ category ≠ .other ∧
    entry.isRoot = isRoot ∧ summary.name = name ∧
    descriptor = ⟨name, category, entry.stream, passed.decrypted⟩

/-- That an entry is not recorded under a key. -/
def Misses (gate : Decryption.Gate) (criteria : Criteria) (entry : Entry)
    (category : Category) (isRoot : Bool) (name : String) : Prop :=
  ∀ descriptor, ¬ Records gate criteria entry category isRoot name descriptor

/-- That a descriptor is recorded under a key by the last of the entries that are recorded
under it. -/
def RecordedLast (gate : Decryption.Gate) (criteria : Criteria) (entries : List Entry)
    (category : Category) (isRoot : Bool) (name : String) (descriptor : Descriptor) : Prop :=
  ∃ before entry after, entries = before ++ entry :: after ∧
    Records gate criteria entry category isRoot name descriptor ∧
    ∀ later ∈ after, Misses gate criteria later category isRoot name

section Keys

variable {category : Category} {isRoot : Bool} {name : String}

/-- An entry that is found to hold a class of either category is recorded as its descriptor. -/
theorem records_of_examineEntry {entry : Entry} {finding : Finding}
    (hok : examineEntry gate criteria entry = .ok finding) (hkept : finding.category ≠ .other) :
    Records gate criteria entry finding.category entry.isRoot finding.summary.name
      (describe entry finding) := by
  obtain ⟨stored, passed, hread, happly, hparse, hcategory, hdecrypted⟩ :=
    examineEntry_eq_ok_iff.mp hok
  exact ⟨stored, passed, finding.summary, hread, happly, hparse, hcategory.symm, hkept, rfl, rfl,
    by rw [describe, hdecrypted]⟩

/-- An entry is recorded under a key when what it is recorded as lands there. -/
theorem records_iff {entry : Entry} {descriptor : Descriptor} :
    Records gate criteria entry category isRoot name descriptor ↔
      ∃ recording, recording? gate criteria entry = some recording ∧
        Census.lands category isRoot name recording ∧ recording.1 = descriptor := by
  constructor
  · rintro ⟨stored, passed, summary, hread, happly, hparse, rfl, hkept, rfl, rfl, rfl⟩
    have hok : examineEntry gate criteria entry =
        .ok ⟨summary, criteria.categorize summary.annotations, passed.decrypted⟩ :=
      examineEntry_eq_ok_iff.mpr ⟨stored, passed, hread, happly, hparse, rfl, rfl⟩
    refine ⟨(describe entry _, entry.isRoot), (recording?_of_ok hok).trans (if_neg hkept), ?_, rfl⟩
    simp [Census.lands, describe, hkept]
  · rintro ⟨recording, hrecording, hlands, rfl⟩
    cases hexamined : examineEntry gate criteria entry with
    | error error => simp [recording?_of_error hexamined] at hrecording
    | ok finding =>
      rw [recording?_of_ok hexamined] at hrecording
      split at hrecording
      · cases hrecording
      · cases hrecording
        simp only [Census.lands, decide_eq_true_eq] at hlands
        obtain ⟨hkept, rfl, rfl, rfl⟩ := hlands
        exact records_of_examineEntry hexamined hkept

/-- Entries that are not recorded under a key leave its answer as it is. -/
theorem get?_of_misses (census : Census) (entries : List Entry)
    (hmisses : ∀ entry ∈ entries, Misses gate criteria entry category isRoot name) :
    (census.recordAll (entries.filterMap (recording? gate criteria))).get?
        category isRoot name = census.get? category isRoot name := by
  rw [Census.get?_recordAll]
  suffices hnone : (entries.filterMap (recording? gate criteria)).reverse.find?
      (Census.lands category isRoot name) = none by simp [hnone]
  refine List.find?_eq_none.mpr fun recording hmem hlands => ?_
  obtain ⟨entry, hentry, hrecording⟩ := List.mem_filterMap.mp (List.mem_reverse.mp hmem)
  exact hmisses entry hentry recording.1 (records_iff.mpr ⟨recording, hrecording, hlands, rfl⟩)

/-- The last entry that is recorded under a key gives its answer. -/
theorem get?_of_recordedLast (census : Census) {entries : List Entry} {descriptor : Descriptor}
    (hlast : RecordedLast gate criteria entries category isRoot name descriptor) :
    (census.recordAll (entries.filterMap (recording? gate criteria))).get?
        category isRoot name = some descriptor := by
  obtain ⟨before, entry, after, rfl, hrecords, hmisses⟩ := hlast
  obtain ⟨recording, hrecording, hlands, rfl⟩ := records_iff.mp hrecords
  rw [List.filterMap_append, List.filterMap_cons_some hrecording, Census.recordAll_append]
  have hafter := get?_of_misses
    ((census.recordAll (before.filterMap (recording? gate criteria))).record
      recording.1 recording.2) after hmisses
  rw [Census.get?_record, if_pos hlands] at hafter
  exact hafter

/-- When some entry is recorded under a key, there is a last one. -/
theorem exists_recordedLast {entries : List Entry} {entry : Entry} {descriptor : Descriptor}
    (hentry : entry ∈ entries)
    (hrecords : Records gate criteria entry category isRoot name descriptor) :
    ∃ last, RecordedLast gate criteria entries category isRoot name last := by
  induction entries generalizing entry descriptor with
  | nil => cases hentry
  | cons head rest ih =>
    by_cases hrest : ∀ later ∈ rest, Misses gate criteria later category isRoot name
    · rcases List.mem_cons.mp hentry with rfl | hmem
      · exact ⟨descriptor, [], entry, rest, rfl, hrecords, hrest⟩
      · exact absurd hrecords (hrest entry hmem descriptor)
    · simp only [Misses, not_forall, not_not] at hrest
      obtain ⟨later, hlater, other, hother⟩ := hrest
      obtain ⟨last, before, entry, after, rfl, hfound, hmisses⟩ := ih hlater hother
      exact ⟨last, head :: before, entry, after, rfl, hfound, hmisses⟩

/-- After entries are recorded the answer under a key is that of the last entry recorded
there, or the one from before when there is no such entry. -/
theorem get?_recorded_iff (census : Census) (entries : List Entry) (descriptor : Descriptor) :
    (census.recordAll (entries.filterMap (recording? gate criteria))).get?
        category isRoot name = some descriptor ↔
      RecordedLast gate criteria entries category isRoot name descriptor ∨
        (∀ entry ∈ entries, Misses gate criteria entry category isRoot name) ∧
          census.get? category isRoot name = some descriptor := by
  by_cases hmisses : ∀ entry ∈ entries, Misses gate criteria entry category isRoot name
  · rw [get?_of_misses census entries hmisses]
    constructor
    · exact fun hbefore => .inr ⟨hmisses, hbefore⟩
    · rintro (⟨before, entry, after, rfl, hrecords, -⟩ | ⟨-, hbefore⟩)
      · exact absurd hrecords (hmisses entry (by simp) descriptor)
      · exact hbefore
  · have hrecorded := hmisses
    simp only [Misses, not_forall, not_not] at hrecorded
    obtain ⟨entry, hentry, other, hother⟩ := hrecorded
    obtain ⟨last, hlast⟩ := exists_recordedLast hentry hother
    have hanswer := get?_of_recordedLast census hlast
    constructor
    · intro hfound
      rw [hanswer] at hfound
      cases hfound
      exact .inl hlast
    · rintro (hdescriptor | ⟨hnone, -⟩)
      · exact get?_of_recordedLast census hdescriptor
      · exact absurd hnone hmisses

end Keys

end JarCensus.Session
