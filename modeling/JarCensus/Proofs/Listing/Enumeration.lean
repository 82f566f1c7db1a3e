import JarCensus.Dependencies
import JarCensus.Proofs.FileSystem.Tree
import JarCensus.Proofs.Listing.Folder

/-!
# What is found in a folder

Of a folder whose tree can be read, the class files are listed that no ignore file hides, and
the jars are found that none hides. An ignore file above the folder that has faults keeps the
class files from being listed, but not the jars from being found. Without ignore files nothing
below the folder is left out.
-/

namespace JarCensus.Listing

open FileSystem Walk

variable {fs : FileSystem} {start : String} {walk : Walk} {children : List (String × Node)}
  {isRoot : Bool} {names : List String} {content : Bytes}

/-- That entries are those of the shown class files below a folder, each listed once. -/
structure ListsClassFiles (start : String) (isRoot : Bool) (walk : Walk)
    (children : List (String × Node)) (entries : List Entry) : Prop where
  /-- Each shown class file has its entry, and there are no others. -/
  mem_iff : ∀ entry, entry ∈ entries ↔ ∃ names content, FileBelow walk children names content ∧
    walk.Shows names false ∧ isClassName ("/".intercalate names) = true ∧
    entry = ⟨"/".intercalate names, isRoot, some start, .content content⟩
  /-- No name is listed twice. -/
  once : (entries.map (·.name)).Nodup

/-- That paths are those of the shown jars below a folder. -/
structure FindsJars (walk : Walk) (children : List (String × Node)) (jars : List String) :
    Prop where
  /-- Each shown jar is found, and nothing else is. -/
  mem_iff : ∀ jar, jar ∈ jars ↔ ∃ above name content,
    FileBelow walk children (above ++ [name]) content ∧ walk.Shows (above ++ [name]) false ∧
      Path.isJarName name = true ∧ jar = walk.pathOf (above ++ [name])
  /-- The parts of the paths increase, so no jar is found twice. -/
  increasing : jars.Pairwise (Path.parts · < Path.parts ·)
  /-- The order in which the walk comes to the files does not matter. -/
  anyOrder : ∀ delivered : List String, delivered.Perm (walk.fileVisits.map (·.path)) →
    (delivered.filter Path.isJar).mergeSort Path.partsLE = jars

/-- That no ignore file can be read in the folders of a walk or above them. -/
structure NoIgnoreFiles (fs : FileSystem) (walk : Walk) : Prop where
  /-- There is none in the folders of the walk. -/
  below : ∀ names content, fs.read (Ignore.fileIn (walk.pathOf names)) ≠ .ok content
  /-- There is none above. -/
  above : ∀ folder ∈ Ignore.foldersAbove walk.location, ∀ content,
    fs.read (Ignore.fileIn folder) ≠ .ok content

/-- What is found in a folder. -/
structure Enumerates (fs : FileSystem) (start : String) (isRoot : Bool) (walk : Walk)
    (children : List (String × Node)) : Prop where
  /-- Faults of the ignore files above keep the class files from being listed. -/
  faulty : walk.complaints ≠ [] →
    inFolder fs start isRoot = .error (.badIgnoreFiles start walk.complaints)
  /-- Without such faults the shown class files are listed. -/
  classes : walk.complaints = [] → ∃ entries, inFolder fs start isRoot = .ok entries ∧
    ListsClassFiles start isRoot walk children entries
  /-- The shown jars are found. -/
  jars : ∃ jars, Dependencies.jars fs start = .ok jars ∧ FindsJars walk children jars
  /-- Without ignore files there are no faults, and everything is shown. -/
  plain : NoIgnoreFiles fs walk →
    walk.complaints = [] ∧ ∀ names isFolder, walk.Shows names isFolder

/-- Nothing is listed of the standard input. -/
theorem inFolder_of_isStandardInput (hinput : isStandardInput start = true) :
    inFolder fs start isRoot = .ok [] := by
  have hstarted : Walk.ofStart fs start = .ok ⟨fs, start, [], Ignore.scopesAbove fs []⟩ := by
    rw [Walk.ofStart, if_pos hinput]
    rfl
  have hchildren : Walk.children? ⟨fs, start, [], Ignore.scopesAbove fs []⟩ = none := by
    rw [Walk.children?]
    split
    · rw [if_pos hinput]
    · rfl
  have hvisits : Walk.visits ⟨fs, start, [], Ignore.scopesAbove fs []⟩ = [] := by
    rw [Walk.visits, hchildren]
  have hcomplaints : Walk.complaints ⟨fs, start, [], Ignore.scopesAbove fs []⟩ = [] := by
    rw [Walk.complaints, hchildren]
    rfl
  have hobstacle : Walk.obstacle? ⟨fs, start, [], Ignore.scopesAbove fs []⟩ = none := by
    rw [Walk.obstacle?, hvisits]
    rfl
  rw [inFolder_of_entered hstarted hcomplaints hobstacle, Walk.fileVisits, hvisits]
  rfl

/-- A folder without an ignore file has no rules. -/
theorem ruleFile?_eq_none {folder : String}
    (hnone : ∀ content, fs.read (Ignore.fileIn folder) ≠ .ok content) :
    Ignore.ruleFile? fs folder = none := by
  rw [Ignore.ruleFile?]
  cases hread : fs.read (Ignore.fileIn folder) with
  | error cause => rfl
  | ok content => exact absurd hread (hnone content)

section Tree

variable (htree : ReadableTree fs start walk children)
include htree

/-- Without ignore files everything is shown. -/
theorem shows_of_noIgnoreFiles (hnone : NoIgnoreFiles fs walk) (names : List String)
    (isFolder : Bool) : walk.Shows names isFolder := by
  obtain ⟨location, -, rfl⟩ := (ofStart_eq_ok_iff htree.named).mp htree.started
  have habove : Ignore.scopesAbove fs location = [] := by
    rw [Ignore.scopesAbove, List.filterMap_eq_nil_iff]
    intro folder hfolder
    rw [Ignore.scope?, ruleFile?_eq_none (hnone.above folder (List.mem_reverse.mp hfolder))]
    rfl
  have hscopes : ∀ names, scopesAt ⟨fs, start, location, Ignore.scopesAbove fs location⟩ names =
      [] := by
    intro names
    rw [scopesAt, List.filterMap_eq_nil_iff]
    intro above _
    rw [Ignore.scope?, ruleFile?_eq_none (hnone.below above)]
    rfl
  have hshown : ∀ names isFolder,
      isHidden ⟨fs, start, location, Ignore.scopesAbove fs location⟩ names isFolder = false := by
    intro names isFolder
    rw [isHidden, hscopes, hides, habove]
    rfl
  exact ⟨hshown names isFolder, fun above _ _ _ => hshown above true⟩

/-- Without ignore files there are no faults of them. -/
theorem complaints_of_noIgnoreFiles (hnone : NoIgnoreFiles fs walk) : walk.complaints = [] := by
  rw [complaints, htree.children?_eq, htree.files_eq, Ignore.complaintsAbove]
  refine List.flatMap_eq_nil_iff.mpr fun folder hfolder => ?_
  rw [ruleFile?_eq_none (hnone.above folder hfolder)]
  rfl

/-- The names on the way to a file below the start are the segments of its name. -/
theorem segments_of_fileBelow (hfile : FileBelow walk children names content) :
    Path.segments ("/".intercalate names) = names := by
  obtain ⟨node, hat, hleaf, -⟩ := htree.exists_fileBelow_iff.mp ⟨content, hfile⟩
  refine Path.segments_intercalate (fun name hname => (htree.isName_of_at? hat name hname).alone) ?_
  rintro rfl
  cases hat
  cases hleaf

/-- The files that a walk finds are listed under names of their own. -/
theorem nodup_names_fileVisits : (walk.fileVisits.map nameOf).Nodup := by
  refine List.pairwise_map.mpr ((List.pairwise_map.mp htree.nodup_fileVisits).imp_of_mem ?_)
  intro visit other hvisit hother hne hsame
  obtain ⟨names, content, hfile, -, rfl⟩ := htree.mem_fileVisits_iff.mp hvisit
  obtain ⟨names', content', hfile', -, rfl⟩ := htree.mem_fileVisits_iff.mp hother
  refine hne ?_
  rw [← segments_of_fileBelow htree hfile, ← segments_of_fileBelow htree hfile']
  exact congrArg Path.segments hsame

/-- The class files among the visits of a walk are listed. -/
theorem listsClassFiles_fileVisits (isRoot : Bool) : ListsClassFiles start isRoot walk children
    (entriesOfVisits fs start isRoot walk.fileVisits) where
  mem_iff := by
    intro entry
    simp only [entriesOfVisits, List.mem_map, List.mem_filter, htree.mem_fileVisits_iff]
    constructor
    · rintro ⟨_, ⟨⟨names, content, hfile, hshows, rfl⟩, hclass⟩, rfl⟩
      refine ⟨names, content, hfile, hshows, hclass, ?_⟩
      simp [entryOfVisit, nameOf, streamAt, htree.read_pathOf hfile]
    · rintro ⟨names, content, hfile, hshows, hclass, rfl⟩
      refine ⟨_, ⟨⟨names, content, hfile, hshows, rfl⟩, hclass⟩, ?_⟩
      simp [entryOfVisit, nameOf, streamAt, htree.read_pathOf hfile]
  once := by
    rw [entriesOfVisits, List.map_map]
    exact (List.filter_sublist.map _).nodup (nodup_names_fileVisits htree)

/-- The path of a file below the start is that of a jar when the last name is. -/
theorem isJar_pathOf {above : List String} {name : String}
    (hfile : FileBelow walk children (above ++ [name]) content) :
    Path.isJar (walk.pathOf (above ++ [name])) = Path.isJarName name := by
  obtain ⟨node, hat, -, -⟩ := htree.exists_fileBelow_iff.mp ⟨content, hfile⟩
  have hname := htree.isName_of_at? hat name (by simp)
  rw [Path.isJar, htree.parts_pathOf hat, ← List.append_assoc, List.getLast?_concat]
  simp [hname.stays]

/-- The files that a walk finds have paths with parts of their own. -/
theorem nodup_parts_fileVisits :
    ((walk.fileVisits.map (·.path)).map Path.parts).Nodup := by
  rw [List.map_map]
  refine List.pairwise_map.mpr ((List.pairwise_map.mp htree.nodup_fileVisits).imp_of_mem ?_)
  intro visit other hvisit hother hne hsame
  obtain ⟨names, content, hfile, -, rfl⟩ := htree.mem_fileVisits_iff.mp hvisit
  obtain ⟨names', content', hfile', -, rfl⟩ := htree.mem_fileVisits_iff.mp hother
  obtain ⟨node, hat, -, -⟩ := htree.exists_fileBelow_iff.mp ⟨content, hfile⟩
  obtain ⟨node', hat', -, -⟩ := htree.exists_fileBelow_iff.mp ⟨content', hfile'⟩
  refine hne ?_
  simpa [htree.parts_pathOf hat, htree.parts_pathOf hat'] using hsame

/-- The jars among the visits of a walk are found. -/
theorem findsJars_fileVisits : FindsJars walk children
    (((walk.fileVisits.map (·.path)).filter Path.isJar).mergeSort Path.partsLE) where
  mem_iff := by
    intro jar
    simp only [List.mem_mergeSort, List.mem_filter, List.mem_map, htree.mem_fileVisits_iff]
    constructor
    · rintro ⟨⟨_, ⟨names, content, hfile, hshows, rfl⟩, rfl⟩, hjar⟩
      obtain ⟨node, hat, hleaf, -⟩ := htree.exists_fileBelow_iff.mp ⟨content, hfile⟩
      obtain rfl | ⟨above, name, rfl⟩ := List.eq_nil_or_concat' names
      · cases hat
        cases hleaf
      · exact ⟨above, name, content, hfile, hshows, (isJar_pathOf htree hfile).symm.trans hjar, rfl⟩
    · rintro ⟨above, name, content, hfile, hshows, hjar, rfl⟩
      exact ⟨⟨_, ⟨_, content, hfile, hshows, rfl⟩, rfl⟩, (isJar_pathOf htree hfile).trans hjar⟩
  increasing := Path.pairwise_lt_mergeSort
    ((List.filter_sublist.map Path.parts).nodup (nodup_parts_fileVisits htree))
  anyOrder := fun _ hdelivered => Path.mergeSort_eq_of_perm
    ((List.filter_sublist.map Path.parts).nodup (nodup_parts_fileVisits htree))
    (hdelivered.filter _)

/-- A folder is searched for jars by a walk. -/
theorem jars_eq : Dependencies.jars fs start =
    .ok (((walk.fileVisits.map (·.path)).filter Path.isJar).mergeSort Path.partsLE) := by
  unfold Dependencies.jars
  rw [htree.started, htree.isFile_start, htree.isFolder_start]
  rfl

/-- Without faults of ignore files above it a folder is listed as the class files that its walk
finds. -/
theorem inFolder_of_complaints_eq_nil (hfaultless : walk.complaints = []) (isRoot : Bool) :
    inFolder fs start isRoot = .ok (entriesOfVisits fs start isRoot walk.fileVisits) :=
  inFolder_of_entered htree.started hfaultless htree.obstacle?_eq_none

/-- In a folder whose tree can be read the class files and the jars are found that no ignore file
hides, as far as the class files are listed at all. -/
theorem enumerates_readableTree : Enumerates fs start isRoot walk children where
  faulty := inFolder_of_complaints htree.started
  classes := fun hfaultless =>
    ⟨_, inFolder_of_complaints_eq_nil htree hfaultless isRoot,
      listsClassFiles_fileVisits htree isRoot⟩
  jars := ⟨_, jars_eq htree, findsJars_fileVisits htree⟩
  plain := fun hnone =>
    ⟨complaints_of_noIgnoreFiles htree hnone, shows_of_noIgnoreFiles htree hnone⟩

end Tree

/-- The ignore file of a folder that hides a class file and all jars. -/
def hidingRules : Bytes := Text.Utf8.encode "A.class\n*.jar\n".toList

/-- The nodes of that folder. -/
def hidingChildren : List (String × Node) :=
  [(".ignore", .file hidingRules), ("A.class", .file []), ("B.class", .file []),
    ("x.jar", .file [])]

/-- The files with that folder alone. -/
def hidingTree : FileSystem := ⟨.folder [("d", .folder hidingChildren)], []⟩

/-- The walk of that folder. -/
def hidingWalk : Walk := ⟨hidingTree, "d", ["d"], []⟩

/-- The folder can be read. -/
theorem readableTree_hidingTree : ReadableTree hidingTree "d" hidingWalk hidingChildren := by
  refine readableTree_of_flat (by constructor <;> decide) (by decide) (by simp)
    (by simp [List.lookup_cons]) ?_ (by decide) ?_
  · simp only [hidingChildren, List.forall_mem_cons, List.not_mem_nil, false_implies,
      implies_true, and_true]
    refine ⟨?_, ?_, ?_, ?_⟩ <;> constructor <;> decide
  · simp [hidingChildren, Node.isFolder]

/-- The rules of the ignore file hold in the folder. -/
theorem scopesAt_hidingWalk :
    hidingWalk.scopesAt [] = [⟨"d", (Ignore.RuleFile.ofBytes hidingRules).validRules⟩] := by
  have hfile : FileBelow hidingWalk hidingChildren ([] ++ [".ignore"]) hidingRules := .file rfl
  have hscope := readableTree_hidingTree.scope?_pathOf hfile
  have hstart : hidingWalk.pathOf [] = "d" := rfl
  rw [hstart] at hscope
  have hwalk : hidingWalk.start = "d" := rfl
  rw [scopesAt_nil, enter, hwalk, hscope, List.append_nil, Option.toList_some]

/-- A file of the folder is hidden when the rules hide it. -/
theorem isHidden_hidingWalk (name : String) : hidingWalk.isHidden [name] false =
    hidingWalk.hides [⟨"d", (Ignore.RuleFile.ofBytes hidingRules).validRules⟩]
      (Path.join "d" name) false := by
  rw [isHidden, List.dropLast_singleton, scopesAt_hidingWalk]
  rfl

/-- There is nothing to be said of ignore files above the folder. -/
theorem complaints_hidingWalk : hidingWalk.complaints = [] := by
  have habove : Ignore.complaintsAbove hidingTree ["d"] = [] :=
    complaintsAbove_of_lookup_eq_none (by simp [List.lookup_cons])
  rw [complaints, readableTree_hidingTree.children?_eq]
  exact habove

/-- A class file of the folder and a jar in it are left out, although both can be read. -/
theorem not_complete_hidingTree :
    FileBelow hidingWalk hidingChildren ["A.class"] [] ∧ isClassName "A.class" = true ∧
      (∃ entries, inFolder hidingTree "d" true = .ok entries ∧
        ∀ entry ∈ entries, entry.name ≠ "A.class") ∧
    FileBelow hidingWalk hidingChildren ["x.jar"] [] ∧ Path.isJar "d/x.jar" = true ∧
      ∃ jars, Dependencies.jars hidingTree "d" = .ok jars ∧ "d/x.jar" ∉ jars := by
  have hclass : hidingWalk.isHidden ["A.class"] false = true := by
    rw [isHidden_hidingWalk]
    decide +kernel
  have hjar : hidingWalk.isHidden ["x.jar"] false = true := by
    rw [isHidden_hidingWalk]
    decide +kernel
  have hlisted := inFolder_of_complaints_eq_nil readableTree_hidingTree complaints_hidingWalk true
  refine ⟨.file rfl, by decide, ⟨_, hlisted, fun entry hentry hname => ?_⟩, .file rfl, by decide,
    ⟨_, jars_eq readableTree_hidingTree, fun hmem => ?_⟩⟩
  · obtain ⟨names, content, hfile, hshows, -, rfl⟩ :=
      ((listsClassFiles_fileVisits readableTree_hidingTree true).mem_iff entry).mp hentry
    have hnames := segments_of_fileBelow readableTree_hidingTree hfile
    have hsegments : Path.segments "A.class" = ["A.class"] := by decide
    replace hname : "/".intercalate names = "A.class" := hname
    rw [hname, hsegments] at hnames
    rw [← hnames, shows_singleton, hclass] at hshows
    cases hshows
  · obtain ⟨above, name, content, hfile, hshows, -, hpath⟩ :=
      ((findsJars_fileVisits readableTree_hidingTree).mem_iff _).mp hmem
    obtain ⟨node, hat, -, -⟩ := readableTree_hidingTree.exists_fileBelow_iff.mp ⟨content, hfile⟩
    have hparts := readableTree_hidingTree.parts_pathOf hat
    have hjarParts : Path.parts "d/x.jar" = Path.parts "d" ++ ["x.jar"] := by decide
    rw [← hpath, hjarParts] at hparts
    rw [← List.append_cancel_left hparts, shows_singleton, hjar] at hshows
    cases hshows

/-- Of the folder with the ignore file, the class file that it does not name is listed. -/
theorem enumerates_hidingTree : ReadableTree hidingTree "d" hidingWalk hidingChildren ∧
    (∃ entries, inFolder hidingTree "d" true = .ok entries ∧
      ListsClassFiles "d" true hidingWalk hidingChildren entries ∧
      ⟨"B.class", true, some "d", .content []⟩ ∈ entries) ∧
    ∃ jars, Dependencies.jars hidingTree "d" = .ok jars ∧
      FindsJars hidingWalk hidingChildren jars := by
  have henumerates : Enumerates hidingTree "d" true hidingWalk hidingChildren :=
    enumerates_readableTree readableTree_hidingTree
  have hshown : hidingWalk.isHidden ["B.class"] false = false := by
    rw [isHidden_hidingWalk]
    decide +kernel
  obtain ⟨entries, hlisted, hentries⟩ := henumerates.classes complaints_hidingWalk
  refine ⟨readableTree_hidingTree, ⟨entries, hlisted, hentries, ?_⟩, henumerates.jars⟩
  exact (hentries.mem_iff _).mpr
    ⟨["B.class"], [], .file rfl, shows_singleton.mpr hshown, by decide, by simp⟩

end JarCensus.Listing
