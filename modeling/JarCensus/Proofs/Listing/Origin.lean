import JarCensus.Proofs.Listing
import JarCensus.Proofs.Listing.Folder

/-!
# Where listed entries come from

The entries that are listed of a jar are the class entries at its places. An entry belongs to
the main archive itself exactly when it is listed of the main archive and does not stand in a
nested jar.
-/

namespace JarCensus.Listing

variable {fs : FileSystem} {path : String} {isRoot : Bool} {place : Place} {entry : Entry}
  {entries : List Entry} {bytes : Bytes}

/-- That an entry is the class entry at a place of the jar at a path, two levels down at most. -/
def StandsAt (fs : FileSystem) (path : String) (isRoot : Bool) (place : Place) (entry : Entry) :
    Prop :=
  ∃ bytes, fs.read path = .ok bytes ∧ place.jars.length ≤ 2 ∧
    EntryAt path isRoot bytes place entry

/-- What comes of reading the file at a path. -/
inductive FileGives (fs : FileSystem) (path : String) : Stream → Prop
  /-- The bytes of the file. -/
  | content {bytes : Bytes} (hread : fs.read path = .ok bytes) : FileGives fs path (.content bytes)
  /-- Nothing, if the file cannot be read. -/
  | unreadable {cause : FileError} (hread : fs.read path = .error cause) :
    FileGives fs path (.unopenable cause.message)

/-- That an entry is that of a class file which the walk of a folder comes to: it has the name of
the file below the folder, and gives what the file does. -/
inductive WalkedTo (fs : FileSystem) (path : String) (isRoot : Bool) : Entry → Prop
  /-- The entry of a file that the walk comes to. -/
  | intro {walk : Walk} {visit : Walk.Visit} {stream : Stream}
    (hwalk : Walk.ofStart fs path = .ok walk) (hvisit : visit ∈ walk.fileVisits)
    (hname : NamesClass ("/".intercalate visit.names))
    (hstream : FileGives fs visit.path stream) :
    WalkedTo fs path isRoot ⟨"/".intercalate visit.names, isRoot, some path, stream⟩

/-- A jar that is listed was read. -/
theorem exists_read_of_inJar (hlisted : inJar fs path isRoot = .ok entries) :
    ∃ bytes, fs.read path = .ok bytes ∧ ofJar maxNesting path isRoot bytes = .ok entries := by
  unfold inJar at hlisted
  cases hread : fs.read path with
  | error cause => cases cause <;> simp [hread] at hlisted
  | ok bytes => exact ⟨bytes, rfl, by simpa [hread] using hlisted⟩

/-- A jar can be listed exactly when it can be read and all of its members can be opened. -/
theorem exists_inJar_iff : (∃ entries, inJar fs path isRoot = .ok entries) ↔
    ∃ bytes members, fs.read path = .ok bytes ∧ Zip.IsArchive bytes members := by
  constructor
  · rintro ⟨entries, hlisted⟩
    obtain ⟨bytes, hread, hentries⟩ := exists_read_of_inJar hlisted
    refine ⟨bytes, ?_⟩
    cases hjar : OpenJar.ofBytes? bytes with
    | none =>
      obtain ⟨error, herror⟩ := ofJar_of_none maxNesting path isRoot hjar
      cases hentries.symm.trans herror
    | some jar =>
      obtain ⟨members, harchive⟩ := exists_ofBytes?_iff.mp ⟨jar, hjar⟩
      exact ⟨members, hread, harchive⟩
  · rintro ⟨bytes, members, hread, harchive⟩
    obtain ⟨jar, hjar⟩ := exists_ofBytes?_iff.mpr ⟨members, harchive⟩
    rw [inJar_of_read hread]
    exact ⟨_, ofJar_eq hjar⟩

/-- The listed entries of a jar are those that stand at its places. -/
theorem mem_inJar_iff (hlisted : inJar fs path isRoot = .ok entries) :
    entry ∈ entries ↔ ∃ place, StandsAt fs path isRoot place entry := by
  obtain ⟨bytes, members, hread, harchive⟩ := exists_inJar_iff.mp ⟨entries, hlisted⟩
  have hopened : ∃ places entries, ofJar maxNesting path isRoot bytes = .ok entries ∧
      Lists 2 path isRoot bytes places entries := exists_lists_ofJar harchive
  obtain ⟨places, entries', hentries', hlists⟩ := hopened
  rw [inJar_of_read hread] at hlisted
  cases hlisted.symm.trans hentries'
  rw [hlists.mem_iff]
  constructor
  · rintro ⟨place, hlevel, hentry⟩
    exact ⟨place, bytes, hread, hlevel, hentry⟩
  · rintro ⟨place, bytes', hread', hlevel, hentry⟩
    cases hread.symm.trans hread'
    exact ⟨place, hlevel, hentry⟩

/-- An entry belongs to the main archive itself when its jar does and it is in no nested jar. -/
theorem isRoot_of_standsAt (hstands : StandsAt fs path isRoot place entry) :
    entry.isRoot = (isRoot && place.jars.isEmpty) := by
  obtain ⟨bytes, -, -, ⟨⟩⟩ := hstands
  rfl

/-- A jar with an entry at some place can be listed. -/
theorem exists_inJar_of_standsAt (hstands : StandsAt fs path isRoot place entry) :
    ∃ entries, inJar fs path isRoot = .ok entries := by
  obtain ⟨bytes, hread, -, hentry⟩ := hstands
  refine exists_inJar_iff.mpr ⟨bytes, ?_⟩
  cases hjar : OpenJar.ofBytes? bytes with
  | none => cases (entryAt?_of_none hjar place).symm.trans (entryAt?_eq_some_iff.mpr hentry)
  | some jar =>
    obtain ⟨members, harchive⟩ := exists_ofBytes?_iff.mp ⟨jar, hjar⟩
    exact ⟨members, hread, harchive⟩

/-- The stream of a file gives what the file does. -/
theorem fileGives_iff {stream : Stream} : FileGives fs path stream ↔ streamAt fs path = stream := by
  unfold streamAt
  constructor
  · rintro (hread | hread) <;> rw [hread]
  · rintro rfl
    cases hread : fs.read path with
    | ok bytes => exact .content hread
    | error cause => exact .unreadable hread

/-- The listed entries of a folder are those of the class files that its walk comes to. -/
theorem mem_inFolder_iff (hlisted : inFolder fs path isRoot = .ok entries) :
    entry ∈ entries ↔ WalkedTo fs path isRoot entry := by
  obtain ⟨walk, hwalk, rfl⟩ := eq_of_inFolder hlisted
  simp only [entriesOfVisits, List.mem_map, List.mem_filter, isClassName_iff]
  constructor
  · rintro ⟨visit, ⟨hvisit, hname⟩, rfl⟩
    exact .intro hwalk hvisit hname (fileGives_iff.mpr rfl)
  · rintro ⟨hwalk', hvisit, hname, hstream⟩
    cases hwalk.symm.trans hwalk'
    obtain rfl := fileGives_iff.mp hstream
    exact ⟨_, ⟨hvisit, hname⟩, rfl⟩

/-- The entries of a folder have the given origin. -/
theorem WalkedTo.isRoot_eq (hwalked : WalkedTo fs path isRoot entry) : entry.isRoot = isRoot := by
  cases hwalked
  rfl

end JarCensus.Listing
