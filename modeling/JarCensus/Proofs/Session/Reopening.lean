import JarCensus.Proofs.Decryption.Gate
import JarCensus.Proofs.Session.Race

/-!
# Reopening gives back what was classified

A descriptor keeps the stream of its entry and whether the gate transformed the bytes,
but not the path by which the gate decided that. Reopening therefore takes another way
through the gate than the scan did. The two agree for every descriptor that a session
can come to hold.
-/

namespace JarCensus

/-- The entries that an operation is given. -/
def Operation.entries : Operation → List Entry
  | .scan entries => entries
  | .handle entry => [entry]
  | .inspect .. | .reopen _ | .cancel => []

namespace Session

variable {gate : Decryption.Gate} {criteria : Criteria} {session current final : Session}
  {entries : List Entry} {category : Category} {isRoot : Bool} {name : String}
  {entry : Entry} {descriptor : Descriptor}

/-- What a recorded class is when it is read again. -/
structure Faithful (gate : Decryption.Gate) (criteria : Criteria) (entry : Entry)
    (category : Category) (isRoot : Bool) (name : String) (descriptor : Descriptor)
    (stored plain : Bytes) (summary : ClassFile.Summary) : Prop where
  /-- The descriptor has the stream of the entry, and the entry has the origin. -/
  source : descriptor.stream = entry.stream ∧ entry.isRoot = isRoot
  /-- The stream gives the stored bytes. -/
  read : descriptor.stream.read = .ok stored
  /-- Reopening gives the plain bytes. -/
  reopened : reopen gate descriptor = .ok plain
  /-- The plain bytes are a class file. -/
  parsed : ClassFile.parse plain = .ok summary
  /-- The class has the name of the descriptor, and the descriptor is held under it. -/
  name : summary.name = descriptor.name ∧ descriptor.name = name
  /-- The annotations of the class give the category of the descriptor, and the descriptor is
  held under it. -/
  category : criteria.categorize summary.annotations = descriptor.category ∧
    descriptor.category = category ∧ category ≠ .other
  /-- The descriptor says that the bytes were transformed exactly when the gate did so: the
  path of the entry is protected, and there are stored bytes. -/
  decrypted : descriptor.decrypted = true ↔
    stored ≠ [] ∧ gate.isProtected entry.name = true
  /-- Transformed bytes are what the transform makes of the stored bytes. -/
  transformed : descriptor.decrypted = true →
    ∃ lock, gate.lock = some lock ∧ lock.transform lock.key stored = .ok plain
  /-- Other bytes are the stored bytes. -/
  unchanged : descriptor.decrypted = false → plain = stored

/-- A descriptor that an entry was recorded as can be reopened, and what comes back is what was
classified. -/
theorem Records.faithful
    (hrecords : Records gate criteria entry category isRoot name descriptor) :
    ∃ stored plain summary,
      Faithful gate criteria entry category isRoot name descriptor stored plain summary := by
  obtain ⟨stored, passed, summary, hread, happly, hparse, rfl, hkept, rfl, rfl, rfl⟩ := hrecords
  refine ⟨stored, passed.bytes, summary, ?_⟩
  constructor
  case source => exact ⟨rfl, rfl⟩
  case read => exact hread
  case reopened =>
    simp only [reopen, hread]
    cases hpassed : passed.decrypted with
    | true => simp [Decryption.Gate.decrypt_of_apply happly hpassed]
    | false => simp [Decryption.Gate.bytes_eq_of_apply happly hpassed]
  case parsed => exact hparse
  case name => exact ⟨rfl, rfl⟩
  case category => exact ⟨rfl, rfl, hkept⟩
  case decrypted => exact Decryption.Gate.decrypted_iff_of_apply happly
  case transformed =>
    intro hflag
    exact Decryption.Gate.lock_of_decrypt (Decryption.Gate.decrypt_of_apply happly hflag)
  case unchanged =>
    intro hflag
    exact Decryption.Gate.bytes_eq_of_apply happly hflag

/-- The uses of a session: operations, one after the other, and scans by several workers, during
which the session may be cancelled. The entries are all that the session was given. -/
inductive Reaches (session : Session) : List Entry → Session → Prop
  /-- A session that was not used. -/
  | unused : Reaches session [] session
  /-- An operation after other uses. -/
  | perform {entries : List Entry} {current : Session} (operation : Operation) :
    Reaches session entries current →
      Reaches session (entries ++ operation.entries) (current.perform operation)
  /-- A scan by several workers after other uses. -/
  | race {entries batch : List Entry} {current final : Session} {moves : List Move}
      {tree : MergeTree} :
    Reaches session entries current → current.ScannedBy batch moves tree final →
      Reaches session (entries ++ batch) final

/-- That everything a session holds was recorded by one of the given entries, by the gate and
the criteria of the session. -/
def Sourced (session : Session) (entries : List Entry) : Prop :=
  ∀ category isRoot name descriptor,
    session.census.get? category isRoot name = some descriptor →
      ∃ entry ∈ entries,
        Records session.gate session.criteria entry category isRoot name descriptor

/-- Recording some of further entries keeps everything sourced. -/
theorem Sourced.recordAll (hsourced : current.Sourced entries) {settled more : List Entry}
    (hsettled : settled ⊆ more) (hgate : final.gate = current.gate)
    (hcriteria : final.criteria = current.criteria)
    (hcensus : final.census = current.census.recordAll
      (settled.filterMap (recording? current.gate current.criteria))) :
    final.Sourced (entries ++ more) := by
  intro category isRoot name descriptor hheld
  rw [hcensus, get?_recorded_iff] at hheld
  rw [hgate, hcriteria]
  rcases hheld with ⟨before, entry, after, rfl, hrecords, -⟩ | ⟨-, hbefore⟩
  · exact ⟨entry, List.mem_append_right _ (hsettled (by simp)), hrecords⟩
  · obtain ⟨entry, hentry, hrecords⟩ := hsourced category isRoot name descriptor hbefore
    exact ⟨entry, List.mem_append_left _ hentry, hrecords⟩

/-- Every operation keeps everything sourced. -/
theorem Sourced.perform (hsourced : current.Sourced entries) (operation : Operation) :
    (current.perform operation).Sourced (entries ++ operation.entries) := by
  cases operation with
  | scan batch =>
    have hsettled : current.inTime batch ⊆ batch := by
      unfold inTime
      split <;> simp
    rw [Session.perform, scan_eq]
    exact hsourced.recordAll hsettled rfl rfl rfl
  | handle entry =>
    rw [Session.perform, handle_fst]
    exact hsourced.recordAll (List.Subset.refl [entry]) rfl rfl rfl
  | inspect path raw => simpa [Operation.entries, Session.perform] using hsourced
  | reopen descriptor => simpa [Operation.entries, Session.perform] using hsourced
  | cancel =>
    rw [Operation.entries, List.append_nil]
    exact hsourced

/-- A scan by several workers keeps everything sourced. -/
theorem Sourced.race (hsourced : current.Sourced entries) {batch : List Entry}
    {moves : List Move} {tree : MergeTree} (hscan : current.ScannedBy batch moves tree final) :
    final.Sourced (entries ++ batch) := by
  have hlinear := linearized_settled hscan
  have hsettled : Race.pick batch (Race.settled moves) ⊆ batch := by
    intro entry hentry
    obtain ⟨index, -, hindex⟩ := List.mem_filterMap.mp hentry
    exact List.mem_of_getElem? hindex
  exact hsourced.recordAll hsettled hlinear.settings.1 hlinear.settings.2.1 hlinear.census

/-- No operation changes the gate or the criteria. -/
theorem perform_settings (session : Session) (operation : Operation) :
    (session.perform operation).gate = session.gate ∧
      (session.perform operation).criteria = session.criteria := by
  cases operation with
  | scan batch => simp [perform, scan_eq, addStats, absorb, recordEntries]
  | handle entry => simp [perform, handle_fst, recordEntries]
  | inspect path raw => exact ⟨rfl, rfl⟩
  | reopen descriptor => exact ⟨rfl, rfl⟩
  | cancel => exact ⟨rfl, rfl⟩

/-- Whatever a new session is used for, all that it then holds is sourced, and its gate and
criteria are the ones that it started with. -/
theorem Reaches.sourced (hreaches : (start gate criteria).Reaches entries final) :
    final.Sourced entries ∧ final.gate = gate ∧ final.criteria = criteria := by
  induction hreaches with
  | unused =>
    refine ⟨fun category isRoot name descriptor hheld => ?_, rfl, rfl⟩
    rw [Session.start, Census.get?_empty] at hheld
    cases hheld
  | perform operation _ ih =>
    obtain ⟨hsourced, rfl, rfl⟩ := ih
    exact ⟨hsourced.perform operation, perform_settings _ operation⟩
  | race _ hscan ih =>
    obtain ⟨hsourced, rfl, rfl⟩ := ih
    have hsettings := (linearized_settled hscan).settings
    exact ⟨hsourced.race hscan, hsettings.1, hsettings.2.1⟩

/-- Every class that a session holds, after any uses, can be reopened, and what comes back is
what was classified: a class of that name and category, transformed exactly when the gate
transformed it before. -/
theorem reopen_faithful (hreaches : (start gate criteria).Reaches entries final)
    (hheld : final.census.get? category isRoot name = some descriptor) :
    ∃ entry ∈ entries, ∃ stored plain summary,
      Faithful final.gate final.criteria entry category isRoot name descriptor stored plain
        summary := by
  obtain ⟨entry, hentry, hrecords⟩ := hreaches.sourced.1 category isRoot name descriptor hheld
  exact ⟨entry, hentry, hrecords.faithful⟩

/-- A gate that protects the paths below `a` and turns all bits of their bytes over. -/
def invertingGate : Decryption.Gate :=
  .enabled ⟨"a/", "", by decide⟩ ⟨List.replicate 10 0, "seed", by decide, by decide⟩
    fun _ bytes => .ok (bytes.map (255 - ·))

/-- A protected entry whose stored bytes turn into a class. -/
def invertedEntry : Entry :=
  ⟨"a/b", true, none, .content (ClassFile.annotatedClass.encode.map (255 - ·))⟩

/-- A protected class that a scan has recorded comes back in its plain form. -/
theorem reopen_faithful_inverted :
    let final := (start invertingGate ⟨["E"], []⟩).perform (.scan [invertedEntry])
    let descriptor : Descriptor := ⟨"A", .model, invertedEntry.stream, true⟩
    final.census.get? .model true "A" = some descriptor ∧
      ∃ entry ∈ [invertedEntry], ∃ stored plain summary,
        Faithful final.gate final.criteria entry .model true "A" descriptor stored plain
          summary := by
  intro final descriptor
  have hheld : final.census.get? .model true "A" = some descriptor := by decide +kernel
  exact ⟨hheld, reopen_faithful (.perform (.scan [invertedEntry]) .unused) hheld⟩

end Session

end JarCensus
