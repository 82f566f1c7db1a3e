import Mathlib.Data.List.Basic
import JarCensus.Proofs.Census.Views
import JarCensus.Proofs.ClassFile.Exactness
import JarCensus.Proofs.Dependencies
import JarCensus.Proofs.Listing.Enumeration
import JarCensus.Proofs.Listing.Origin
import JarCensus.Proofs.Program.Schedule
import JarCensus.Proofs.Session.Reopening

/-!
# Where the names of a scan report come from

A name is reported as one of the main archive exactly when an entry at the top level of the main
archive holds a class of that name, and as one from elsewhere exactly when an entry of a nested
jar or of a dependency jar does. The schedule of the workers has no part in this.
-/

namespace JarCensus

namespace Session

variable {gate : Decryption.Gate} {criteria : Criteria} {entry : Entry} {entries : List Entry}
  {category : Category} {isRoot : Bool} {name : String}

/-- That an entry holds a class of a category and a name: it can be read, the gate lets its bytes
through, and what comes out is a class of the name with annotations of the category. -/
def Holds (gate : Decryption.Gate) (criteria : Criteria) (entry : Entry) (category : Category)
    (name : String) : Prop :=
  ∃ stored passed summary, entry.stream.read = .ok stored ∧
    gate.apply entry.name stored = .ok passed ∧ ClassFile.parse passed.bytes = .ok summary ∧
    summary.name = name ∧ criteria.categorize summary.annotations = category

/-- An entry that holds a class of either category is recorded under the name of the class, the
category and the origin of the entry, and under nothing else. -/
theorem exists_recording?_iff (hkept : category ≠ .other) :
    (∃ recording, recording? gate criteria entry = some recording ∧
      Census.key recording = (category, isRoot, name)) ↔
    entry.isRoot = isRoot ∧ Holds gate criteria entry category name := by
  constructor
  · rintro ⟨recording, hrecording, hkey⟩
    cases hexamined : examineEntry gate criteria entry with
    | error error => simp [recording?_of_error hexamined] at hrecording
    | ok finding =>
      rw [recording?_of_ok hexamined] at hrecording
      split at hrecording
      · cases hrecording
      · cases hrecording
        obtain ⟨stored, passed, hread, happly, hparse, hcategory, -⟩ :=
          examineEntry_eq_ok_iff.mp hexamined
        simp only [Census.key, describe, Prod.mk.injEq] at hkey
        obtain ⟨rfl, hroot, hname⟩ := hkey
        exact ⟨hroot, stored, passed, finding.summary, hread, happly, hparse, hname,
          hcategory.symm⟩
  · rintro ⟨hroot, stored, passed, summary, hread, happly, hparse, hname, rfl⟩
    have hexamined : examineEntry gate criteria entry =
        .ok ⟨summary, criteria.categorize summary.annotations, passed.decrypted⟩ :=
      examineEntry_eq_ok_iff.mpr ⟨stored, passed, hread, happly, hparse, rfl, rfl⟩
    refine ⟨_, (recording?_of_ok hexamined).trans (if_neg hkept), ?_⟩
    simp [Census.key, describe, hroot, hname]

/-- The names of a partition after a scan are those of the classes of its category that entries
of its origin hold. -/
theorem mem_names_scan_iff (hkept : category ≠ .other) :
    name ∈ ((start gate criteria).scan entries).1.census.names category isRoot ↔
      ∃ entry ∈ entries, entry.isRoot = isRoot ∧ Holds gate criteria entry category name := by
  have hcensus : ((start gate criteria).scan entries).1.census =
      Census.empty.recordAll (entries.filterMap (recording? gate criteria)) := by
    rw [scan_of_running _ _ rfl]
    rfl
  rw [hcensus, Census.mem_names_recordAll_empty]
  constructor
  · rintro ⟨-, recording, hmem, hkey⟩
    obtain ⟨entry, hentry, hrecording⟩ := List.mem_filterMap.mp hmem
    exact ⟨entry, hentry, (exists_recording?_iff hkept).mp ⟨recording, hrecording, hkey⟩⟩
  · rintro ⟨entry, hentry, hholds⟩
    obtain ⟨recording, hrecording, hkey⟩ := (exists_recording?_iff hkept).mpr hholds
    exact ⟨hkept, recording, List.mem_filterMap.mpr ⟨entry, hentry, hrecording⟩, hkey⟩

end Session

namespace Program

open Session

variable {fs : FileSystem} {pools : PoolBuilder} {config : Config} {archive : String}
  {dependencies : List String} {session : Session} {own : List Entry} {entry : Entry}

/-- An entry at the top level of the main archive: a class file of a folder, or a class entry of
a jar that stands in the jar itself. -/
inductive TopEntry (fs : FileSystem) (archive : String) : Entry → Prop
  /-- A class file of a folder. -/
  | ofFolder {entry : Entry} (hfolder : fs.isFolder archive = true)
    (hwalked : Listing.WalkedTo fs archive true entry) : TopEntry fs archive entry
  /-- A class entry of a jar. -/
  | ofJar {index : Nat} {entry : Entry} (hjar : fs.isFolder archive = false)
    (hstands : Listing.StandsAt fs archive true ⟨[], index⟩ entry) : TopEntry fs archive entry

/-- An entry from elsewhere: a class entry of a jar that is nested in the main archive, or of a
jar of the dependencies or one nested in it. -/
inductive OtherEntry (fs : FileSystem) (archive : String) (dependencies : List String) :
    Entry → Prop
  /-- A class entry of a jar that is nested in the main archive. -/
  | nested {place : Listing.Place} {entry : Entry} (hjar : fs.isFolder archive = false)
    (hnested : place.jars ≠ []) (hstands : Listing.StandsAt fs archive true place entry) :
    OtherEntry fs archive dependencies entry
  /-- A class entry of a jar of the dependencies or of one nested in it. -/
  | dependency {path : String} {jars : List String} {jar : String} {place : Listing.Place}
    {entry : Entry} (hpath : path ∈ dependencies) (hjars : Dependencies.jars fs path = .ok jars)
    (hjar : jar ∈ jars) (hstands : Listing.StandsAt fs jar false place entry) :
    OtherEntry fs archive dependencies entry

/-- The entries of the main archive that belong to it are those at its top level. -/
theorem mem_own_iff_top (hown : Listing.atPath fs archive true = .ok own) :
    (entry ∈ own ∧ entry.isRoot = true) ↔ TopEntry fs archive entry := by
  unfold Listing.atPath at hown
  split at hown
  · rename_i hfolder
    rw [Listing.mem_inFolder_iff hown]
    constructor
    · rintro ⟨hwalked, -⟩
      exact .ofFolder hfolder hwalked
    · intro htop
      cases htop with
      | ofFolder _ hwalked => exact ⟨hwalked, hwalked.isRoot_eq⟩
      | ofJar hjar _ => simp [hfolder] at hjar
  · rename_i hfolder
    rw [Listing.mem_inJar_iff hown]
    constructor
    · rintro ⟨⟨⟨jars, index⟩, hstands⟩, hroot⟩
      rw [Listing.isRoot_of_standsAt hstands] at hroot
      obtain rfl : jars = [] := by simpa using hroot
      exact .ofJar (by simpa using hfolder) hstands
    · intro htop
      cases htop with
      | ofFolder hjar _ => exact absurd hjar hfolder
      | ofJar _ hstands => exact ⟨⟨_, hstands⟩, Listing.isRoot_of_standsAt hstands⟩

/-- The entries of the main archive that do not belong to it are those of nested jars. -/
theorem mem_own_iff_nested (hown : Listing.atPath fs archive true = .ok own) :
    (entry ∈ own ∧ entry.isRoot = false) ↔ fs.isFolder archive = false ∧
      ∃ place, place.jars ≠ [] ∧ Listing.StandsAt fs archive true place entry := by
  unfold Listing.atPath at hown
  split at hown
  · rename_i hfolder
    rw [Listing.mem_inFolder_iff hown]
    constructor
    · rintro ⟨hwalked, hroot⟩
      cases hwalked.isRoot_eq.symm.trans hroot
    · rintro ⟨hjar, -⟩
      simp [hfolder] at hjar
  · rename_i hfolder
    rw [Listing.mem_inJar_iff hown]
    constructor
    · rintro ⟨⟨place, hstands⟩, hroot⟩
      rw [Listing.isRoot_of_standsAt hstands] at hroot
      exact ⟨by simpa using hfolder, place, by simpa using hroot, hstands⟩
    · rintro ⟨-, place, hnested, hstands⟩
      refine ⟨⟨place, hstands⟩, ?_⟩
      rw [Listing.isRoot_of_standsAt hstands]
      simpa using hnested

/-- The entries of the dependencies are those that stand in their jars. -/
theorem mem_dependencies_iff :
    entry ∈ (Dependencies.found fs dependencies).flatMap (Dependencies.entriesOf fs) ↔
      ∃ path ∈ dependencies, ∃ jars, Dependencies.jars fs path = .ok jars ∧ ∃ jar ∈ jars,
        ∃ place, Listing.StandsAt fs jar false place entry := by
  simp only [List.mem_flatMap, Dependencies.mem_found_iff, Dependencies.mem_entriesOf_iff]
  constructor
  · rintro ⟨jar, ⟨path, hpath, jars, hjars, hjar⟩, hstands⟩
    exact ⟨path, hpath, jars, hjars, jar, hjar, hstands⟩
  · rintro ⟨path, hpath, jars, hjars, jar, hjar, hstands⟩
    exact ⟨jar, ⟨path, hpath, jars, hjars, hjar⟩, hstands⟩

/-- The entries of a scan: those of the main archive and those of the jars of the dependencies
that can be listed. -/
def scannedEntries (fs : FileSystem) (own : List Entry) (dependencies : List String) :
    List Entry :=
  own ++ (Dependencies.found fs dependencies).flatMap (Dependencies.entriesOf fs)

/-- The entries of a scan that belong to the main archive are those at its top level. -/
theorem mem_scannedEntries_iff_top (hown : Listing.atPath fs archive true = .ok own) :
    (entry ∈ scannedEntries fs own dependencies ∧ entry.isRoot = true) ↔
      TopEntry fs archive entry := by
  rw [← mem_own_iff_top hown, scannedEntries, List.mem_append, mem_dependencies_iff]
  constructor
  · rintro ⟨hentry | ⟨path, -, jars, -, jar, -, place, hstands⟩, hroot⟩
    · exact ⟨hentry, hroot⟩
    · rw [Listing.isRoot_of_standsAt hstands] at hroot
      cases hroot
  · rintro ⟨hentry, hroot⟩
    exact ⟨.inl hentry, hroot⟩

/-- The other entries of a scan are those from elsewhere. -/
theorem mem_scannedEntries_iff_other (hown : Listing.atPath fs archive true = .ok own) :
    (entry ∈ scannedEntries fs own dependencies ∧ entry.isRoot = false) ↔
      OtherEntry fs archive dependencies entry := by
  rw [scannedEntries, List.mem_append, mem_dependencies_iff]
  constructor
  · rintro ⟨hentry | ⟨path, hpath, jars, hjars, jar, hjar, place, hstands⟩, hroot⟩
    · obtain ⟨hjar, place, hnested, hstands⟩ := (mem_own_iff_nested hown).mp ⟨hentry, hroot⟩
      exact .nested hjar hnested hstands
    · exact .dependency hpath hjars hjar hstands
  · intro hother
    cases hother with
    | nested hjar hnested hstands =>
      obtain ⟨hentry, hroot⟩ := (mem_own_iff_nested hown).mpr ⟨hjar, _, hnested, hstands⟩
      exact ⟨.inl hentry, hroot⟩
    | dependency hpath hjars hjar hstands =>
      exact ⟨.inr ⟨_, hpath, _, hjars, _, hjar, _, hstands⟩, Listing.isRoot_of_standsAt hstands⟩

/-- That the names of a category come from where a report says. -/
structure NamesFrom (gate : Decryption.Gate) (criteria : Criteria) (category : Category)
    (top other : Entry → Prop) (names : NameLists) : Prop where
  /-- The names of the main archive are those of the classes that its top entries hold. -/
  root : ∀ name, name ∈ names.root ↔ ∃ entry, top entry ∧ Holds gate criteria entry category name
  /-- The names from elsewhere are those of the classes that the other entries hold. -/
  nonRoot : ∀ name, name ∈ names.nonRoot ↔
    ∃ entry, other entry ∧ Holds gate criteria entry category name
  /-- The names of the main archive increase. -/
  rootIncreasing : names.root.Pairwise (· < ·)
  /-- The names from elsewhere increase. -/
  nonRootIncreasing : names.nonRoot.Pairwise (· < ·)

/-- That a report says where the classes of a scan come from. -/
structure Provenance (fs : FileSystem) (archive : String) (dependencies : List String)
    (session : Session) (own : List Entry) (report : CensusReport) : Prop where
  /-- The names of the models come from where the report says. -/
  models : NamesFrom session.gate session.criteria .model (TopEntry fs archive)
    (OtherEntry fs archive dependencies) report.models
  /-- So do the names of the converters. -/
  converters : NamesFrom session.gate session.criteria .converter (TopEntry fs archive)
    (OtherEntry fs archive dependencies) report.converters
  /-- The summary gives the lengths of the lists. -/
  summary : report.summary = ⟨report.models.root.length, report.models.nonRoot.length,
    report.converters.root.length, report.converters.nonRoot.length⟩
  /-- The dependency jars that can be listed are counted, as often as they are found. -/
  dependencyJars : report.dependencyJars =
    (Dependencies.found fs dependencies).countP (Dependencies.isListable fs)
  /-- The counts are those of the entries of the main archive and of these jars. -/
  stats : report.stats =
    counts session.gate session.criteria (scannedEntries fs own dependencies) 0
  /-- All of these entries were handled. -/
  handled : report.stats.handled = own.length +
    ((Dependencies.found fs dependencies).flatMap (Dependencies.entriesOf fs)).length
  /-- The failures are those of these entries. -/
  failures : report.failures.Perm ((scannedEntries fs own dependencies).filterMap
    (failure? session.gate))

/-- What the workers of a scan start from when the main archive is listed as the given entries. -/
def preparedScan (fs : FileSystem) (session : Session) (own : List Entry)
    (dependencies : List String) : Preparation :=
  ⟨session, scannedEntries fs own dependencies,
    (Dependencies.found fs dependencies).countP (Dependencies.isListable fs)⟩

/-- The configuration, the archive and the dependencies of a scan settle what its workers start
from. -/
theorem prepare_eq (hsession : config.session pools = .ok session)
    (hown : Listing.atPath fs archive true = .ok own)
    (hfound : ∀ path ∈ dependencies, ∃ jars, Dependencies.jars fs path = .ok jars) :
    prepare fs pools config archive dependencies = .ok (preparedScan fs session own dependencies) :=
  prepare_eq_ok_iff.mpr
    ⟨session, own, _, _, hsession, hown, Dependencies.entries_eq hfound, rfl⟩

/-- The names that a census lists after all entries of a scan come from where the report says. -/
theorem namesFrom_of_names {gate : Decryption.Gate} {criteria : Criteria} {category : Category}
    {census : Census} (hkept : category ≠ .other)
    (hown : Listing.atPath fs archive true = .ok own)
    (hnames : ∀ isRoot, census.names category isRoot =
      ((start gate criteria).scan (scannedEntries fs own dependencies)).1.census.names category
        isRoot) :
    NamesFrom gate criteria category (TopEntry fs archive) (OtherEntry fs archive dependencies)
      (CensusReport.namesOf census category) where
  root := by
    intro name
    simp only [CensusReport.namesOf, hnames, mem_names_scan_iff hkept, ← and_assoc,
      mem_scannedEntries_iff_top hown]
  nonRoot := by
    intro name
    simp only [CensusReport.namesOf, hnames, mem_names_scan_iff hkept, ← and_assoc,
      mem_scannedEntries_iff_other hown]
  rootIncreasing := census.names_increasing category true
  nonRootIncreasing := census.names_increasing category false

/-- Whatever the schedule of the workers, the report on what they leave behind says where the
classes come from. -/
theorem provenance_report {moves : List Move} {tree : MergeTree} {final : Session}
    (hsession : config.session pools = .ok session)
    (hown : Listing.atPath fs archive true = .ok own) (hmoves : .cancel ∉ moves)
    (hscan : session.ScannedBy (scannedEntries fs own dependencies) moves tree final) :
    Provenance fs archive dependencies session own
      ((preparedScan fs session own dependencies).report config archive final) := by
  obtain ⟨-, -, gate, -, -, rfl⟩ := Config.session_eq_ok_iff_gate.mp hsession
  have hagrees := (linearized_settled hscan).agrees hmoves
  have hstats : final.stats =
      counts gate config.criteria (scannedEntries fs own dependencies) 0 := by
    rw [hagrees.stats, scan_of_running _ _ rfl]
    exact Stats.zero_add _
  constructor
  case models => exact namesFrom_of_names (by decide) hown (hagrees.names .model)
  case converters => exact namesFrom_of_names (by decide) hown (hagrees.names .converter)
  case summary => exact final.census.summary_eq
  case dependencyJars => rfl
  case stats => exact hstats
  case handled =>
    have hhandled : final.stats.handled = (scannedEntries fs own dependencies).length := by
      rw [hstats]
      rfl
    rw [scannedEntries, List.length_append] at hhandled
    exact hhandled
  case failures =>
    have hfailures := hagrees.failures
    rw [scan_of_running _ _ rfl] at hfailures
    exact (List.mergeSort_perm _ _).trans hfailures

/-- A scan whose configuration is valid, whose archive can be listed and whose dependencies can
be searched ends with a report that says where the classes come from, on one thread and under
every schedule of several workers. Jars of the dependencies that cannot be listed add nothing to
it and do not keep it from being made. -/
theorem scan_provenance (hsession : config.session pools = .ok session)
    (hown : Listing.atPath fs archive true = .ok own)
    (hfound : ∀ path ∈ dependencies, ∃ jars, Dependencies.jars fs path = .ok jars) :
    (∃ report, scan fs pools config archive dependencies = .ok report ∧
      Provenance fs archive dependencies session own report) ∧
    ∀ moves tree result, ScannedAs fs pools config archive dependencies moves tree result →
      ∃ report, result = .ok report ∧ Provenance fs archive dependencies session own report := by
  have hprepare := prepare_eq hsession hown hfound
  have hall : ∀ moves tree result,
      ScannedAs fs pools config archive dependencies moves tree result →
      ∃ report, result = .ok report ∧
        Provenance fs archive dependencies session own report := by
    intro moves tree result hscanned
    cases hscanned with
    | refused hfault => cases hprepare.symm.trans hfault
    | scanned hstart hmoves hscan =>
      cases hprepare.symm.trans hstart
      exact ⟨_, rfl, provenance_report hsession hown hmoves hscan⟩
  refine ⟨?_, hall⟩
  obtain ⟨moves, tree, hscanned⟩ := exists_scannedAs_scan fs pools config archive dependencies
  exact hall moves tree _ hscanned

section Layers

/-- The bytes of a class whose name and whose annotation have one letter each. -/
def classOf (name annotation : Char) : Bytes :=
  { ClassFile.annotatedClass with constants := [.plain .long [0, 0, 0, 0, 0, 0, 0, 1],
      .utf8 (Text.Utf8.encode [name]), .classRef 3, .utf8 (Text.Utf8.encode ['L', annotation, ';']),
      .utf8 ClassFile.visibleAnnotations] }.encode

/-- The members of a jar with a model and a converter. -/
def innerMembers : List Zip.Packing.Part :=
  [.stored "C.class" (classOf 'C' 'M'), .stored "D.class" (classOf 'D' 'K')]

/-- The members of a jar with a model, a converter, such a jar and an empty file with the name of
a jar. -/
def outerMembers : List Zip.Packing.Part :=
  [.stored "A.class" (classOf 'A' 'M'), .stored "B.class" (classOf 'B' 'K'),
    .stored "lib/inner.jar" (Zip.Packing.archive innerMembers), .stored "broken.jar" []]

/-- The members of a jar of the dependencies. -/
def otherMembers : List Zip.Packing.Part :=
  [.stored "E.class" (classOf 'E' 'M'), .stored "F.class" (classOf 'F' 'K')]

/-- Two of the jars, a folder with a class and an empty file with the name of a jar. -/
def layeredTree : FileSystem :=
  ⟨.folder [("app.jar", .file (Zip.Packing.archive outerMembers)),
    ("app", .folder [("A.class", .file (classOf 'A' 'M'))]),
    ("dep.jar", .file (Zip.Packing.archive otherMembers)), ("bad.jar", .file [])], []⟩

/-- The configuration under which classes of one annotation are models, and those of the other one
converters. -/
def layeredConfig : Config :=
  { Config.standard with modelAnnotations := some ["M"], converterAnnotations := some ["K"] }

/-- The three jars are archives without any extension of the format. -/
theorem fits_layers : Zip.Packing.Fits outerMembers ∧ Zip.Packing.Fits innerMembers ∧
    Zip.Packing.Fits otherMembers :=
  ⟨by constructor <;> decide +kernel, by constructor <;> decide +kernel,
    by constructor <;> decide +kernel⟩

/-- Without a gate, an entry holds the class that its bytes are read as. -/
theorem holds_of_parse {criteria : Criteria} {bytes : Bytes} {summary : ClassFile.Summary}
    (hparse : ClassFile.parse bytes = .ok summary) (label : String) (isRoot : Bool)
    (container : Option String) :
    Holds .disabled criteria ⟨label, isRoot, container, .content bytes⟩
      (criteria.categorize summary.annotations) summary.name :=
  ⟨bytes, ⟨bytes, false⟩, summary, rfl, rfl, hparse, rfl, rfl⟩

/-- The classes of one annotation are models, and those of the other one converters. -/
theorem holds_classOf {name : Char} (hname : name ∈ "ABCDEF".toList) (label : String)
    (isRoot : Bool) (container : Option String) :
    Holds .disabled layeredConfig.criteria
        ⟨label, isRoot, container, .content (classOf name 'M')⟩ .model (String.ofList [name]) ∧
      Holds .disabled layeredConfig.criteria
        ⟨label, isRoot, container, .content (classOf name 'K')⟩ .converter
        (String.ofList [name]) := by
  have hparse : ∀ name ∈ "ABCDEF".toList,
      ClassFile.parse (classOf name 'M') = .ok ⟨String.ofList [name], ["M"]⟩ ∧
        ClassFile.parse (classOf name 'K') = .ok ⟨String.ofList [name], ["K"]⟩ := by
    refine List.forall_iff_forall_mem.mp ?_
    decide +kernel
  obtain ⟨hmodel, hconverter⟩ := hparse name hname
  exact ⟨holds_of_parse hmodel label isRoot container,
    holds_of_parse hconverter label isRoot container⟩

/-- The folder is listed as its class file. -/
theorem exists_atPath_folder :
    ∃ own, Listing.atPath layeredTree "app" true = .ok own ∧
      ⟨"A.class", true, some "app", .content (classOf 'A' 'M')⟩ ∈ own := by
  have htree : Walk.ReadableTree layeredTree "app" ⟨layeredTree, "app", ["app"], []⟩
      [("A.class", .file (classOf 'A' 'M'))] := by
    refine Walk.readableTree_of_flat (by constructor <;> decide) (by decide)
      (by simp [List.lookup_cons]) (by simp [List.lookup_cons]) ?_ (by decide)
      (by simp [Node.isFolder])
    simp only [List.forall_mem_singleton]
    constructor <;> decide
  have hcomplaints : Walk.complaints ⟨layeredTree, "app", ["app"], []⟩ = [] := by
    rw [Walk.complaints, htree.children?_eq]
    exact Walk.complaintsAbove_of_lookup_eq_none (by simp [List.lookup_cons])
  have hshown : Walk.isHidden ⟨layeredTree, "app", ["app"], []⟩ ["A.class"] false = false := by
    rw [Walk.isHidden, List.dropLast_singleton,
      htree.scopesAt_nil_of_lookup_eq_none (by simp [List.lookup_cons]) (by decide)]
    rfl
  refine ⟨_, ?_, ((Listing.listsClassFiles_fileVisits htree true).mem_iff _).mpr
    ⟨["A.class"], _, .file rfl, Walk.shows_singleton.mpr hshown, by decide, by simp⟩⟩
  rw [Listing.atPath, htree.isFolder_start]
  exact Listing.inFolder_of_complaints_eq_nil htree hcomplaints true

/-- The jar around the others is listed. -/
theorem exists_atPath_outer :
    layeredTree.read "app.jar" = .ok (Zip.Packing.archive outerMembers) ∧
      layeredTree.isFolder "app.jar" = false ∧
      ∃ own, Listing.atPath layeredTree "app.jar" true = .ok own := by
  have hread : layeredTree.read "app.jar" = .ok (Zip.Packing.archive outerMembers) :=
    FileSystem.read_of_isName (by constructor <;> decide) rfl
  have hfolder : layeredTree.isFolder "app.jar" = false :=
    FileSystem.isFolder_of_isName (by constructor <;> decide) rfl
  obtain ⟨members, harchive, -⟩ := Zip.Packing.archive_holds fits_layers.1
  refine ⟨hread, hfolder, ?_⟩
  rw [Listing.atPath, hfolder]
  exact Listing.exists_inJar_iff.mpr ⟨_, members, hread, harchive⟩

/-- The jar of the dependencies is found and can be listed, and the empty file is found and cannot
be listed. -/
theorem dependencies_layeredTree :
    Dependencies.jars layeredTree "dep.jar" = .ok ["dep.jar"] ∧
      Dependencies.jars layeredTree "bad.jar" = .ok ["bad.jar"] ∧
      layeredTree.read "dep.jar" = .ok (Zip.Packing.archive otherMembers) ∧
      Dependencies.isListable layeredTree "dep.jar" = true ∧
      Dependencies.isListable layeredTree "bad.jar" = false := by
  have hread : layeredTree.read "dep.jar" = .ok (Zip.Packing.archive otherMembers) :=
    FileSystem.read_of_isName (by constructor <;> decide) rfl
  have hempty : layeredTree.read "bad.jar" = .ok [] :=
    FileSystem.read_of_isName (by constructor <;> decide) rfl
  obtain ⟨members, harchive, -⟩ := Zip.Packing.archive_holds fits_layers.2.2
  refine ⟨?_, ?_, hread, Dependencies.isListable_iff.mpr ⟨_, members, hread, harchive⟩, ?_⟩
  · rw [Dependencies.jars, FileSystem.isFile_iff_read.mpr ⟨_, hread⟩]
    rfl
  · rw [Dependencies.jars, FileSystem.isFile_iff_read.mpr ⟨_, hempty⟩]
    rfl
  · rw [Bool.eq_false_iff, ne_eq, Dependencies.isListable_iff]
    rintro ⟨bytes, members, hbytes, harchive⟩
    cases hempty.symm.trans hbytes
    cases harchive.directory

/-- The class files of the jar itself are at the top level. -/
theorem topEntry_layeredTree (index : Nat) {label : String} {bytes : Bytes}
    (hmember : outerMembers[index]? = some (.stored label bytes))
    (hname : Listing.isClassName label = true) :
    TopEntry layeredTree "app.jar" ⟨label, true, some "app.jar", .content bytes⟩ :=
  .ofJar exists_atPath_outer.2.1 ⟨_, exists_atPath_outer.1, Nat.zero_le 2,
    Listing.entryAt_packed fits_layers.1 hmember (Listing.isClassName_iff.mp hname)⟩

/-- Those of the jar in it are from elsewhere. -/
theorem otherEntry_inner (index : Nat) {label : String} {bytes : Bytes}
    {dependencies : List String} (hmember : innerMembers[index]? = some (.stored label bytes))
    (hname : Listing.isClassName label = true) :
    OtherEntry layeredTree "app.jar" dependencies
      ⟨label, false, some "app.jar!/lib/inner.jar", .content bytes⟩ := by
  have hinner : Listing.EntryAt ("app.jar" ++ "!/" ++ "lib/inner.jar") false
      (Zip.Packing.archive innerMembers) ⟨[], index⟩
      ⟨label, false, some "app.jar!/lib/inner.jar", .content bytes⟩ :=
    Listing.entryAt_packed fits_layers.2.1 hmember (Listing.isClassName_iff.mp hname)
  have hjar : outerMembers[2]? =
      some (.stored "lib/inner.jar" (Zip.Packing.archive innerMembers)) := rfl
  have hplace : Listing.EntryAt "app.jar" true (Zip.Packing.archive outerMembers) ⟨[2], index⟩
      ⟨label, false, some "app.jar!/lib/inner.jar", .content bytes⟩ :=
    Listing.entryAt_under_packed fits_layers.1 hjar ⟨"lib/inner", rfl⟩ hinner
  exact .nested exists_atPath_outer.2.1 (by simp)
    ⟨_, exists_atPath_outer.1, by simp, hplace⟩

/-- So are those of the jar of the dependencies. -/
theorem otherEntry_dependency (index : Nat) {label : String} {bytes : Bytes}
    {dependencies : List String} (hmember : otherMembers[index]? = some (.stored label bytes))
    (hname : Listing.isClassName label = true) (hmem : "dep.jar" ∈ dependencies) :
    OtherEntry layeredTree "app.jar" dependencies
      ⟨label, false, some "dep.jar", .content bytes⟩ := by
  have hplace : Listing.EntryAt "dep.jar" false (Zip.Packing.archive otherMembers) ⟨[], index⟩
      ⟨label, false, some "dep.jar", .content bytes⟩ :=
    Listing.entryAt_packed fits_layers.2.2 hmember (Listing.isClassName_iff.mp hname)
  exact .dependency hmem dependencies_layeredTree.1 (List.mem_singleton.mpr rfl)
    ⟨_, dependencies_layeredTree.2.2.1, by simp, hplace⟩

/-- The classes of the jar itself are reported as those of the main archive, and those of the jar
in it and of the jar of the dependencies as those from elsewhere. The jar of the dependencies, which
is found twice, counts twice, and the one that cannot be listed does not count. The class of the
folder is reported as one of the main archive when the folder is. -/
theorem scan_provenance_layeredTree :
    ∃ session own report folder folderReport, layeredConfig.session .unlimited = .ok session ∧
      Listing.atPath layeredTree "app.jar" true = .ok own ∧
      Listing.atPath layeredTree "app" true = .ok folder ∧
      (∀ path ∈ ["dep.jar", "dep.jar", "bad.jar"],
        ∃ jars, Dependencies.jars layeredTree path = .ok jars) ∧
      scan layeredTree .unlimited layeredConfig "app.jar" ["dep.jar", "dep.jar", "bad.jar"] =
        .ok report ∧
      scan layeredTree .unlimited layeredConfig "app" [] = .ok folderReport ∧
      ("A" ∈ report.models.root ∧ "C" ∈ report.models.nonRoot ∧ "E" ∈ report.models.nonRoot) ∧
      ("B" ∈ report.converters.root ∧ "D" ∈ report.converters.nonRoot ∧
        "F" ∈ report.converters.nonRoot) ∧
      report.dependencyJars = 2 ∧ "A" ∈ folderReport.models.root := by
  have hsession : layeredConfig.session .unlimited =
      .ok (.start .disabled layeredConfig.criteria) :=
    Config.session_of_decryption_eq_none rfl (Config.staffed_unlimited _)
  obtain ⟨-, -, own, hown⟩ := exists_atPath_outer
  obtain ⟨folder, hlisted, hwalked⟩ := exists_atPath_folder
  obtain ⟨hdep, hbad, -, hlistable, hnotListable⟩ := dependencies_layeredTree
  have hfound : ∀ path ∈ ["dep.jar", "dep.jar", "bad.jar"],
      ∃ jars, Dependencies.jars layeredTree path = .ok jars := by
    simp [hdep, hbad]
  obtain ⟨⟨report, hscan, hprovenance⟩, -⟩ := scan_provenance hsession hown hfound
  have hnothing : ∀ path ∈ [], ∃ jars, Dependencies.jars layeredTree path = .ok jars := nofun
  obtain ⟨⟨folderReport, hfolderScan, hfolderProvenance⟩, -⟩ :=
    scan_provenance hsession hlisted hnothing
  have hdependency : "dep.jar" ∈ ["dep.jar", "dep.jar", "bad.jar"] := List.mem_cons_self
  refine ⟨_, own, report, folder, folderReport, hsession, hown, hlisted, hfound, hscan,
    hfolderScan, ⟨?_, ?_, ?_⟩, ⟨?_, ?_, ?_⟩, ?_, ?_⟩
  · exact (hprovenance.models.root "A").mpr
      ⟨_, topEntry_layeredTree 0 rfl (by decide), (holds_classOf (by decide) ..).1⟩
  · exact (hprovenance.models.nonRoot "C").mpr
      ⟨_, otherEntry_inner 0 rfl (by decide), (holds_classOf (by decide) ..).1⟩
  · exact (hprovenance.models.nonRoot "E").mpr
      ⟨_, otherEntry_dependency 0 rfl (by decide) hdependency,
        (holds_classOf (by decide) ..).1⟩
  · exact (hprovenance.converters.root "B").mpr
      ⟨_, topEntry_layeredTree 1 rfl (by decide), (holds_classOf (by decide) ..).2⟩
  · exact (hprovenance.converters.nonRoot "D").mpr
      ⟨_, otherEntry_inner 1 rfl (by decide), (holds_classOf (by decide) ..).2⟩
  · exact (hprovenance.converters.nonRoot "F").mpr
      ⟨_, otherEntry_dependency 1 rfl (by decide) hdependency,
        (holds_classOf (by decide) ..).2⟩
  · rw [hprovenance.dependencyJars]
    have hjars : Dependencies.found layeredTree ["dep.jar", "dep.jar", "bad.jar"] =
        ["dep.jar", "dep.jar", "bad.jar"] := by
      simp [Dependencies.found, hdep, hbad, Except.toOption]
    rw [hjars]
    simp [hlistable, hnotListable]
  · exact (hfolderProvenance.models.root "A").mpr
      ⟨_, (mem_own_iff_top hlisted).mp ⟨hwalked, rfl⟩, (holds_classOf (by decide) ..).1⟩

end Layers

end Program

end JarCensus
