import JarCensus.Proofs.FileSystem.Walk
import JarCensus.Proofs.Success

/-!
# Trees that can be read

When a path leads to the folder of a well-formed tree and no path below it is too long, the path
of every file and folder in the tree leads to it. A walk of the tree then enters every folder
that it comes to, and the files that it finds are the shown ones.
-/

namespace JarCensus

namespace FileSystem

variable {fs : FileSystem} {path : String}

/-- A path leads to a file when its bytes can be read. -/
theorem isFile_iff_read : fs.isFile path = true ↔ ∃ content, fs.read path = .ok content := by
  unfold isFile read
  cases hnode : fs.node? path with
  | error cause => simp [bind, Except.bind]
  | ok node => cases node <;> simp [bind, Except.bind, pure, Except.pure, throw, throwThe,
      MonadExceptOf.throw]

end FileSystem

namespace Walk

open FileSystem

/-- That a path leads to a folder whose tree can be read, and the walk from there. -/
structure ReadableTree (fs : FileSystem) (start : String) (walk : Walk)
    (children : List (String × Node)) : Prop where
  /-- The walk starts from the path. -/
  started : Walk.ofStart fs start = .ok walk
  /-- The path does not stand for the standard input. -/
  named : isStandardInput start = false
  /-- The path leads to the folder. -/
  folder : fs.root.at? walk.location = some (.folder children)
  /-- The tree is well-formed. -/
  wellFormed : (Node.folder children).WellFormed
  /-- No path in the tree is too long. -/
  fits : ∀ names node, (Node.folder children).at? names = some node →
    (walk.pathOf names).utf8ByteSize ≤ maxPathSize

/-- A file below the start of a walk and its bytes: a file itself, or a link that leads to one. -/
inductive FileBelow (walk : Walk) (children : List (String × Node)) :
    List String → Bytes → Prop
  /-- A file. -/
  | file {names : List String} {content : Bytes}
    (hat : (Node.folder children).at? names = some (.file content)) :
    FileBelow walk children names content
  /-- A link that leads to a file. -/
  | link {names : List String} {target : String} {content : Bytes}
    (hat : (Node.folder children).at? names = some (.link target))
    (hread : walk.files.read (walk.pathOf names) = .ok content) :
    FileBelow walk children names content

variable {fs : FileSystem} {start : String} {walk : Walk} {children : List (String × Node)}
  {names : List String} {name : String} {node : Node} {content : Bytes} {visit : Visit}

/-- A walk starts from where its path leads. -/
theorem ofStart_eq_ok_iff (hnamed : isStandardInput start = false) :
    Walk.ofStart fs start = .ok walk ↔ ∃ location, fs.resolve start = .ok location ∧
      walk = ⟨fs, start, location, Ignore.scopesAbove fs location⟩ := by
  unfold Walk.ofStart
  rw [hnamed, if_neg Bool.false_ne_true, bind_eq_ok_iff]
  simp only [pure, Except.pure, Except.ok.injEq, eq_comm]

namespace ReadableTree

variable (htree : ReadableTree fs start walk children)
include htree

/-- The walk is one of the files that it starts from. -/
theorem files_eq : walk.files = fs := by
  obtain ⟨location, -, rfl⟩ := (ofStart_eq_ok_iff htree.named).mp htree.started
  rfl

/-- The walk has the path that it starts from. -/
theorem start_eq : walk.start = start := by
  obtain ⟨location, -, rfl⟩ := (ofStart_eq_ok_iff htree.named).mp htree.started
  rfl

/-- The path leads to the folder that is walked. -/
theorem resolve_start : fs.resolve start = .ok walk.location := by
  obtain ⟨location, hresolve, rfl⟩ := (ofStart_eq_ok_iff htree.named).mp htree.started
  exact hresolve

/-- The path is not empty. -/
theorem start_ne_empty : start ≠ "" := by
  obtain ⟨trail, -, -, hstart, -⟩ := exists_leads_of_resolve htree.resolve_start
  exact (start_eq_ok_iff.mp hstart).2.1

/-- The folder is walked. -/
theorem children?_eq : walk.children? = some children := by
  rw [children?, htree.files_eq, htree.folder, htree.start_eq, htree.named]
  rfl

/-- A node of the tree is a node of the files. -/
theorem at?_location (hat : (Node.folder children).at? names = some node) :
    fs.root.at? (walk.location ++ names) = some node := by
  rw [Node.at?_append, htree.folder, Option.bind_some, hat]

/-- The path of a file or a folder of the tree leads to it. -/
theorem resolve_pathOf (hat : (Node.folder children).at? names = some node)
    (hnode : ∀ target, node ≠ .link target) :
    fs.resolve (walk.pathOf names) = .ok (walk.location ++ names) := by
  induction names using List.reverseRecOn generalizing node with
  | nil =>
    rw [List.append_nil, pathOf, List.foldl_nil, htree.start_eq]
    exact htree.resolve_start
  | append_singleton above name ih =>
    have hsplit := hat
    rw [Node.at?_append] at hsplit
    obtain ⟨parent, hparent, hchild⟩ := Option.bind_eq_some_iff.mp hsplit
    cases parent with
    | file content => cases hchild
    | link target => cases hchild
    | folder siblings =>
      have hform := Node.wellFormed_folder_iff.mp (htree.wellFormed.at? hparent)
      have hlookup : siblings.lookup name = some node := by
        rw [← Node.at?_append_singleton hparent, hat]
      have hname := hform.1 _ ((lookup_eq_some_iff_mem hform.2.1).mp hlookup)
      have hsize := htree.fits _ _ hat
      rw [pathOf_append_singleton] at hsize ⊢
      rw [← List.append_assoc]
      exact resolve_join (ih hparent (by simp)) (htree.at?_location hparent) hname hlookup hnode
        hsize

/-- The path of a file or a folder of the tree leads to the node. -/
theorem node?_pathOf (hat : (Node.folder children).at? names = some node)
    (hnode : ∀ target, node ≠ .link target) : fs.node? (walk.pathOf names) = .ok node :=
  node?_of_resolve (htree.resolve_pathOf hat hnode) (htree.at?_location hat)

/-- The path leads to a folder. -/
theorem isFolder_start : fs.isFolder start = true := by
  simp only [isFolder, node?_of_resolve htree.resolve_start htree.folder]

/-- The path leads to no file. -/
theorem isFile_start : fs.isFile start = false := by
  simp only [isFile, node?_of_resolve htree.resolve_start htree.folder]

/-- Every folder that the walk comes to can be entered. -/
theorem obstacle?_eq_none : walk.obstacle? = none := by
  rw [obstacle?, List.findSome?_eq_none_iff]
  intro visit hvisit
  obtain ⟨hvisit, hfolder⟩ := List.mem_filter.mp hvisit
  obtain ⟨names, node, -, hat, -, rfl⟩ :=
    (mem_visits_iff htree.children?_eq htree.wellFormed).mp hvisit
  have hnode : ∀ target, node ≠ .link target := by
    rintro target rfl
    cases hfolder
  simp only [visitOf, htree.files_eq, htree.resolve_pathOf hat hnode]

/-- The bytes of a file below the start can be read at its path. -/
theorem read_pathOf (hfile : FileBelow walk children names content) :
    fs.read (walk.pathOf names) = .ok content := by
  cases hfile with
  | file hat => exact read_of_node? (htree.node?_pathOf hat (by simp))
  | link _ hread => rwa [htree.files_eq] at hread

/-- An ignore file in the tree gives the rules of its folder. -/
theorem scope?_pathOf (hfile : FileBelow walk children (names ++ [".ignore"]) content) :
    Ignore.scope? walk.files (walk.pathOf names) =
      some ⟨walk.pathOf names, (Ignore.RuleFile.ofBytes content).validRules⟩ := by
  have hread := htree.read_pathOf hfile
  rw [pathOf_append_singleton] at hread
  rw [htree.files_eq, Ignore.scope?, Ignore.ruleFile?, Ignore.fileIn, hread]
  rfl

/-- Without an ignore file in the folder that is walked there are no rules for what is in it. -/
theorem scopesAt_nil_of_lookup_eq_none (hplain : children.lookup ".ignore" = none)
    (hsize : (Path.join start ".ignore").utf8ByteSize ≤ maxPathSize) : walk.scopesAt [] = [] := by
  have hresolve : fs.resolve (Ignore.fileIn start) = .error .notFound :=
    resolve_join_of_lookup_eq_none htree.resolve_start htree.folder (by constructor <;> decide)
      hplain hsize
  have hscope : Ignore.scope? fs start = none := by
    simp [Ignore.scope?, Ignore.ruleFile?, read_of_resolve_eq_error hresolve, Except.toOption]
  rw [scopesAt_nil, enter, htree.files_eq, htree.start_eq, hscope]
  rfl

/-- The nodes below the start that can be read as files are the files and links to files. -/
theorem exists_fileBelow_iff : (∃ content, FileBelow walk children names content) ↔
    ∃ node, (Node.folder children).at? names = some node ∧ node.isFolder = false ∧
      fs.isFile (walk.pathOf names) = true := by
  constructor
  · rintro ⟨content, hfile⟩
    have hisFile := isFile_iff_read.mpr ⟨content, htree.read_pathOf hfile⟩
    cases hfile with
    | file hat => exact ⟨_, hat, rfl, hisFile⟩
    | link hat _ => exact ⟨_, hat, rfl, hisFile⟩
  · rintro ⟨node, hat, hleaf, hisFile⟩
    cases node with
    | folder inner => cases hleaf
    | file content => exact ⟨content, .file hat⟩
    | link target =>
      obtain ⟨content, hread⟩ := isFile_iff_read.mp hisFile
      exact ⟨content, .link hat (by rwa [htree.files_eq])⟩

/-- A walk finds the files below its start that are shown. -/
theorem mem_fileVisits_iff : visit ∈ walk.fileVisits ↔ ∃ names content,
    FileBelow walk children names content ∧ walk.Shows names false ∧
      visit = ⟨names, walk.pathOf names, false⟩ := by
  rw [fileVisits, List.mem_filter, mem_visits_iff htree.children?_eq htree.wellFormed,
    htree.files_eq]
  constructor
  · rintro ⟨⟨names, node, -, hat, hshows, rfl⟩, hisFile⟩
    have hleaf : node.isFolder = false := by
      cases node with
      | file content => rfl
      | link target => rfl
      | folder inner =>
        have hnode := htree.node?_pathOf hat (by simp)
        simp [visitOf, isFile, hnode] at hisFile
    obtain ⟨content, hfile⟩ := htree.exists_fileBelow_iff.mpr ⟨node, hat, hleaf, hisFile⟩
    exact ⟨names, content, hfile, hleaf ▸ hshows, by rw [visitOf, hleaf]⟩
  · rintro ⟨names, content, hfile, hshows, rfl⟩
    obtain ⟨node, hat, hleaf, hisFile⟩ := htree.exists_fileBelow_iff.mp ⟨content, hfile⟩
    refine ⟨⟨names, node, ?_, hat, hleaf ▸ hshows, by rw [visitOf, hleaf]⟩, hisFile⟩
    rintro rfl
    cases hat
    cases hleaf

/-- No file is found twice. -/
theorem nodup_fileVisits : (walk.fileVisits.map (·.names)).Nodup :=
  (List.filter_sublist.map _).nodup (nodup_visits htree.children?_eq htree.wellFormed)

/-- The names on the way to a node of the tree are names that a node can have. -/
theorem isName_of_at? (hat : (Node.folder children).at? names = some node) :
    ∀ name ∈ names, IsName name :=
  htree.wellFormed.isName_of_at? hat

/-- The parts of the path of a node are those of the start and the names on the way. -/
theorem parts_pathOf (hat : (Node.folder children).at? names = some node) :
    Path.parts (walk.pathOf names) = Path.parts start ++ names := by
  rw [pathOf, htree.start_eq]
  exact Path.parts_foldl_join htree.start_ne_empty (htree.isName_of_at? hat)

end ReadableTree

section Flat

variable {siblings : List (String × Node)}

/-- The root has no rules when there is no ignore file in it. -/
theorem ruleFile?_root (hplain : siblings.lookup ".ignore" = none) :
    Ignore.ruleFile? ⟨.folder siblings, []⟩ "/" = none := by
  have hresolve : (FileSystem.mk (.folder siblings) []).resolve (Path.join "/" ".ignore") =
      .error .notFound :=
    resolve_join_of_lookup_eq_none (resolve_root rfl) rfl (by constructor <;> decide) hplain
      (by decide)
  simp [Ignore.ruleFile?, Ignore.fileIn, read_of_resolve_eq_error hresolve, Except.toOption]

/-- Only the root is above a folder in the root. -/
theorem foldersAbove_singleton (folder : String) : Ignore.foldersAbove [folder] = ["/"] := by
  have hroot : Path.ofNames [] = "/" := by decide
  simp [Ignore.foldersAbove, hroot]

/-- There are no rules above a folder in the root when there is no ignore file in the root. -/
theorem scopesAbove_of_lookup_eq_none {folder : String}
    (hplain : siblings.lookup ".ignore" = none) :
    Ignore.scopesAbove ⟨.folder siblings, []⟩ [folder] = [] := by
  simp [Ignore.scopesAbove, foldersAbove_singleton, Ignore.scope?, ruleFile?_root hplain]

/-- There is nothing to be said of ignore files above a folder in the root when there is none in
the root. -/
theorem complaintsAbove_of_lookup_eq_none {folder : String}
    (hplain : siblings.lookup ".ignore" = none) :
    Ignore.complaintsAbove ⟨.folder siblings, []⟩ [folder] = [] := by
  simp [Ignore.complaintsAbove, foldersAbove_singleton, ruleFile?_root hplain]

/-- A folder in the root that has no folders in it can be read. -/
theorem readableTree_of_flat {folder : String} (hfolder : IsName folder)
    (hnamed : isStandardInput folder = false)
    (hlookup : siblings.lookup folder = some (.folder children))
    (hplain : siblings.lookup ".ignore" = none) (hnames : ∀ child ∈ children, IsName child.1)
    (hdistinct : (children.map (·.1)).Nodup)
    (hflat : ∀ child ∈ children, child.2.isFolder = false) :
    ReadableTree ⟨.folder siblings, []⟩ folder ⟨⟨.folder siblings, []⟩, folder, [folder], []⟩
      children where
  started := by
    refine (ofStart_eq_ok_iff hnamed).mpr ⟨[folder], ?_, ?_⟩
    · exact resolve_of_isName hfolder hlookup (by simp)
    · rw [scopesAbove_of_lookup_eq_none hplain]
  named := hnamed
  folder := by simp [Node.at?, hlookup]
  wellFormed := Node.wellFormed_folder_iff.mpr
    ⟨hnames, hdistinct, fun child hchild => Node.wellFormed_of_leaf (hflat child hchild)⟩
  fits := by
    have hshort := hfolder.short
    unfold maxNameSize at hshort
    intro names node hat
    rcases Node.names_of_at?_of_flat hdistinct hflat hat with rfl | ⟨child, hchild, rfl⟩
    · change folder.utf8ByteSize ≤ 4095
      omega
    · have hchildShort := (hnames child hchild).short
      unfold maxNameSize at hchildShort
      have hsize := Path.utf8ByteSize_join_le folder child.1
      change (Path.join folder child.1).utf8ByteSize ≤ 4095
      omega

end Flat

end Walk

end JarCensus
