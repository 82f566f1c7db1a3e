import JarCensus.Proofs.FileSystem.Following
import JarCensus.Proofs.FileSystem.Name
import JarCensus.Proofs.Success

/-!
# Reading what was written

A write puts a file where its path leads, and the path then leads to that file: the folders and
the links on the way are still there. New folders are made where nothing was, so they take
nothing away either.
-/

namespace JarCensus

namespace Node

/-- That a node is as good as another one on the way to something: both are files with like
contents, or links that stand for the same path, or folders. -/
inductive Like (alike : Bytes → Bytes → Prop) : Node → Node → Prop
  /-- Two files. -/
  | file {content content' : Bytes} (hcontent : alike content content') :
    Like alike (.file content) (.file content')
  /-- Two links. -/
  | link {target : String} : Like alike (.link target) (.link target)
  /-- Two folders. -/
  | folder {children children' : List (String × Node)} :
    Like alike (.folder children) (.folder children')

/-- That wherever a tree has a node, another one has a node like it. -/
def Keeps (alike : Bytes → Bytes → Prop) (old new : Node) : Prop :=
  ∀ location node, old.at? location = some node →
    ∃ node', new.at? location = some node' ∧ Like alike node node'

variable {alike : Bytes → Bytes → Prop} {tree old new node : Node} {location front : Location}
  {children : List (String × Node)} {name : String}

/-- A node is like itself. -/
theorem Like.refl (halike : ∀ content, alike content content) (node : Node) :
    Like alike node node := by
  cases node with
  | file content => exact .file (halike content)
  | link target => exact .link
  | folder children => exact .folder

/-- The node of a set name is the one that was set, and other names have the nodes that they
had. -/
theorem lookup_setChild (name other : String) (node : Node) (children : List (String × Node)) :
    (setChild name node children).lookup other =
      if other = name then some node else children.lookup other := by
  induction children with
  | nil => rw [setChild, lookup_cons_eq]
  | cons child rest ih =>
    obtain ⟨first, old⟩ := child
    unfold setChild
    by_cases hfirst : first = name
    · rw [if_pos hfirst, lookup_cons_eq, lookup_cons_eq, hfirst]
      by_cases hother : other = name <;> simp [hother]
    · rw [if_neg hfirst, lookup_cons_eq, lookup_cons_eq, ih]
      by_cases hother : other = name
      · simp [hother, Ne.symm hfirst]
      · simp [hother]

/-- The node that is put at a location is there. -/
theorem at?_put (node : Node) (location : Location) (tree : Node) :
    (put node location tree).at? location = some node := by
  induction location generalizing tree with
  | nil => cases node <;> rfl
  | cons name rest ih => simp [put, at?, lookup_setChild, ih]

/-- Putting a node further down is putting it into the node on the way. -/
theorem put_append (hold : tree.at? front = some old) (node : Node) (back : Location) :
    put node (front ++ back) tree = put (put node back old) front tree := by
  induction front generalizing tree with
  | nil =>
    obtain rfl : tree = old := by cases tree <;> simpa [at?] using hold
    rfl
  | cons name rest ih =>
    cases tree with
    | file content => cases hold
    | link target => cases hold
    | folder children =>
      obtain ⟨child, hlookup, hrest⟩ := Option.bind_eq_some_iff.mp hold
      simp [put, Node.children, hlookup, ih hrest]

/-- A tree keeps what it has when the node at a location is replaced by one that keeps what that
node has. -/
theorem keeps_put (halike : ∀ content, alike content content)
    (hold : tree.at? location = some old) (hkeeps : Keeps alike old new) :
    Keeps alike tree (put new location tree) := by
  induction location generalizing tree with
  | nil =>
    obtain rfl : tree = old := by cases tree <;> simpa [at?] using hold
    exact hkeeps
  | cons name rest ih =>
    cases tree with
    | file content => cases hold
    | link target => cases hold
    | folder children =>
      obtain ⟨child, hlookup, hrest⟩ := Option.bind_eq_some_iff.mp hold
      have hput : put new (name :: rest) (folder children) =
          folder (setChild name (put new rest child) children) := by
        simp [put, Node.children, hlookup]
      rw [hput]
      intro location found hfound
      cases location with
      | nil =>
        obtain rfl : folder children = found := by simpa [at?] using hfound
        exact ⟨_, rfl, .folder⟩
      | cons other more =>
        obtain ⟨inner, hinner, hmore⟩ := Option.bind_eq_some_iff.mp hfound
        by_cases hother : other = name
        · subst hother
          obtain rfl : inner = child := Option.some.inj (hinner.symm.trans hlookup)
          obtain ⟨found', hfound', hlike⟩ := ih hrest more found hmore
          exact ⟨found', by simpa [at?, lookup_setChild] using hfound', hlike⟩
        · refine ⟨found, ?_, .refl halike found⟩
          simp [at?, lookup_setChild, hother, hinner, hmore]

/-- A tree keeps what it has when a node is put at a name that its folder does not have. -/
theorem keeps_put_vacancy (halike : ∀ content, alike content content)
    (hfolder : tree.at? location = some (.folder children))
    (hvacant : children.lookup name = none) (node : Node) :
    Keeps alike tree (put node (location ++ [name]) tree) := by
  rw [put_append hfolder]
  refine keeps_put halike hfolder ?_
  have hput : put node [name] (folder children) = folder (setChild name node children) := by
    cases node <;> simp [put, Node.children]
  rw [hput]
  intro location found hfound
  cases location with
  | nil =>
    obtain rfl : folder children = found := by simpa [at?] using hfound
    exact ⟨_, rfl, .folder⟩
  | cons other more =>
    obtain ⟨inner, hinner, hmore⟩ := Option.bind_eq_some_iff.mp hfound
    have hother : other ≠ name := by
      rintro rfl
      cases hinner.symm.trans hvacant
    refine ⟨found, ?_, .refl halike found⟩
    simp [at?, lookup_setChild, hother, hinner, hmore]

/-- A tree keeps what it has, up to the contents of files, when a file is replaced by another. -/
theorem keeps_put_file {content content' : Bytes}
    (hfile : tree.at? location = some (.file content)) :
    Keeps (fun _ _ => True) tree (put (.file content') location tree) := by
  refine keeps_put (fun _ => trivial) hfile ?_
  intro location found hfound
  cases location with
  | nil =>
    obtain rfl : file content = found := by simpa [at?] using hfound
    exact ⟨_, rfl, .file trivial⟩
  | cons name rest => cases hfound

end Node

/-- The location of a destination, be it that of a node or of one that is to be made. -/
def Destination.place : Destination → Location
  | node location => location
  | vacancy folder name => folder ++ [name]

namespace FileSystem

variable {alike : Bytes → Bytes → Prop} {root root' node : Node} {trail trail' behind : Trail}
  {makesFile : Bool} {links : Nat} {segments : List String} {location folder : Location}
  {children : List (String × Node)} {name path : String} {content : Bytes}
  {fs files : FileSystem} {destination : Destination}

section Following

/-- The location of a trail with one more step. -/
theorem Trail.location_cons (step : String × Node) (trail : Trail) :
    Trail.location (step :: trail) = Trail.location trail ++ [step.1] := by
  simp [Trail.location]

/-- The location of a trail without its last step. -/
theorem Trail.location_drop (trail : Trail) :
    Trail.location (trail.drop 1) = (Trail.location trail).dropLast := by
  cases trail with
  | nil => rfl
  | cons step behind => simp [Trail.location]

/-- In a tree that keeps what another one has, trails to one location lead to nodes that are
alike. -/
theorem like_reached (hkeeps : Node.Keeps alike root root') (htrail : IsTrail root trail)
    (htrail' : IsTrail root' trail') (hlocation : Trail.location trail' = Trail.location trail) :
    Node.Like alike (reached root trail) (reached root' trail') := by
  obtain ⟨node', hnode', hlike⟩ := hkeeps _ _ htrail.at?
  have hat := htrail'.at?
  rw [hlocation, hnode'] at hat
  exact Option.some.inj hat ▸ hlike

/-- Where one of the trails leads to a folder, so does the other one, and every name of the folder
is there with a node like its own. -/
theorem folder_of_keeps (hkeeps : Node.Keeps alike root root') (htrail : IsTrail root trail)
    (htrail' : IsTrail root' trail') (hlocation : Trail.location trail' = Trail.location trail)
    (hfolder : reached root trail = .folder children) :
    ∃ children', reached root' trail' = .folder children' ∧
      (∀ name, root'.at? (Trail.location trail ++ [name]) = children'.lookup name) ∧
      ∀ name node, children.lookup name = some node →
        ∃ node', children'.lookup name = some node' ∧ Node.Like alike node node' := by
  have hlike := like_reached hkeeps htrail htrail' hlocation
  rw [hfolder] at hlike
  cases hreached : reached root' trail' with
  | file content =>
    rw [hreached] at hlike
    cases hlike
  | link target =>
    rw [hreached] at hlike
    cases hlike
  | folder children' =>
    have hat := htrail.at?
    have hat' := htrail'.at?
    rw [hfolder] at hat
    rw [hreached, hlocation] at hat'
    refine ⟨children', rfl, Node.at?_append_singleton hat', fun name node hlookup => ?_⟩
    rw [← Node.at?_append_singleton hat] at hlookup
    obtain ⟨node', hnode', hlike'⟩ := hkeeps _ _ hlookup
    rw [Node.at?_append_singleton hat'] at hnode'
    exact ⟨node', hnode', hlike'⟩

/-- Following comes to the same place in a tree that keeps what the tree has, be it to read there
or to make a file. A name that the tree does not have leads to the file that is there then. -/
theorem follow_of_keeps (hkeeps : Node.Keeps alike root root') (htrail : IsTrail root trail)
    (htrail' : IsTrail root' trail') (hlocation : Trail.location trail' = Trail.location trail)
    (hfollow : follow root makesFile links segments trail = .ok destination)
    (hmade : ∀ folder name, destination = .vacancy folder name → makesFile = true ∧
      ∃ content, root'.at? (folder ++ [name]) = some (.file content)) :
    follow root' false links segments trail' = .ok (.node destination.place) := by
  fun_induction follow root makesFile links segments trail generalizing trail' with
  | case1 links trail =>
    cases hfollow
    rw [follow, hlocation]
    rfl
  | case2 links trail segment rest children hfolder hidle ih =>
    obtain ⟨children', hfolder', -, -⟩ := folder_of_keeps hkeeps htrail htrail' hlocation hfolder
    rw [follow_of_idle hfolder' hidle]
    exact ih htrail htrail' hlocation hfollow
  | case3 links trail rest children hfolder _ ih =>
    obtain ⟨children', hfolder', -, -⟩ := folder_of_keeps hkeeps htrail htrail' hlocation hfolder
    rw [follow_of_up hfolder']
    refine ih htrail.drop htrail'.drop ?_ hfollow
    rw [Trail.location_drop, Trail.location_drop, hlocation]
  | case6 links trail segment rest children hfolder hidle hstays hmakes hshort hlookup hlast =>
    -- A file is made under the last name only, so nothing is left to follow behind it.
    cases hfollow
    obtain ⟨hmakesFile, content, hfile⟩ := hmade _ _ rfl
    obtain ⟨children', hfolder', hnames, -⟩ :=
      folder_of_keeps hkeeps htrail htrail' hlocation hfolder
    obtain rfl : rest = [] := by simpa [hmakesFile, hlast] using hmakes
    rw [hnames] at hfile
    rw [follow_of_child hfolder' (by simpa using hidle) hstays (Nat.not_lt.mp hshort) hfile
      (by simp), follow, Trail.location_cons, hlocation]
    rfl
  | case9 trail segment rest children hfolder hidle hstays _ hshort target hlookup links ih =>
    obtain ⟨children', hfolder', -, hnames⟩ :=
      folder_of_keeps hkeeps htrail htrail' hlocation hfolder
    obtain ⟨node', hlookup', hlike⟩ := hnames _ _ hlookup
    cases hlike
    rw [follow_of_link hfolder' (by simpa using hidle) hstays (Nat.not_lt.mp hshort) hlookup']
    refine ih ?_ ?_ ?_ hfollow
    all_goals split
    · trivial
    · exact htrail
    · trivial
    · exact htrail'
    · rfl
    · exact hlocation
  | case10 links trail segment rest children hfolder hidle hstays _ hshort node hnode hlookup ih =>
    obtain ⟨children', hfolder', -, hnames⟩ :=
      folder_of_keeps hkeeps htrail htrail' hlocation hfolder
    obtain ⟨node', hlookup', hlike⟩ := hnames _ _ hlookup
    have hnode' : ∀ target, node' ≠ .link target := by
      rintro target rfl
      cases hlike
      exact hnode target rfl
    rw [follow_of_child hfolder' (by simpa using hidle) hstays (Nat.not_lt.mp hshort) hlookup'
      hnode']
    refine ih ⟨htrail, _, hfolder, hlookup⟩ ⟨htrail', _, hfolder', hlookup'⟩ ?_ hfollow
    rw [Trail.location_cons, Trail.location_cons, hlocation]
  | _ => cases hfollow

/-- A name that a path leads to in vain is one that its folder does not have. -/
theorem folder_of_vacancy (htrail : IsTrail root trail)
    (hfollow : follow root makesFile links segments trail = .ok (.vacancy folder name)) :
    ∃ children, root.at? folder = some (.folder children) ∧ children.lookup name = none := by
  fun_induction follow root makesFile links segments trail with
  | case2 links trail segment rest children hfolder hidle ih => exact ih htrail hfollow
  | case3 links trail rest children hfolder _ ih => exact ih htrail.drop hfollow
  | case6 links trail segment rest children hfolder hidle hstays hmakes hshort hlookup hlast =>
    cases hfollow
    exact ⟨children, htrail.at?.trans (congrArg some hfolder), hlookup⟩
  | case9 trail segment rest children hfolder hidle hstays _ hshort target hlookup links ih =>
    refine ih ?_ hfollow
    split
    · trivial
    · exact htrail
  | case10 links trail segment rest children hfolder hidle hstays _ hshort node hnode hlookup ih =>
    exact ih ⟨htrail, children, hfolder, hlookup⟩ hfollow
  | _ => cases hfollow

/-- There is a trail to a location exactly when there is a node, and it leads there. -/
theorem exists_trail?_iff : (∃ trail, trail? behind node location = some trail) ↔
    ∃ found, node.at? location = some found := by
  induction location generalizing behind node with
  | nil => cases node <;> simp [trail?, Node.at?]
  | cons name rest ih =>
    cases node with
    | file content => simp [trail?, Node.at?]
    | link target => simp [trail?, Node.at?]
    | folder children =>
      cases hlookup : children.lookup name <;> simp [trail?, Node.at?, hlookup, ih]

/-- A trail leads to its location. -/
theorem location_of_trail? (htrail : trail? behind node location = some trail) :
    Trail.location trail = Trail.location behind ++ location := by
  induction location generalizing behind node with
  | nil => cases node <;> cases htrail <;> simp
  | cons name rest ih =>
    cases node with
    | file content => cases htrail
    | link target => cases htrail
    | folder children =>
      obtain ⟨child, hlookup, hrest⟩ := Option.bind_eq_some_iff.mp htrail
      rw [ih hrest, Trail.location_cons, List.append_assoc]
      rfl

end Following

/-- That a file tree has a node like it wherever another one has a node, and the same working
folder. -/
structure Keeps (alike : Bytes → Bytes → Prop) (fs files : FileSystem) : Prop where
  /-- The nodes are kept. -/
  root : Node.Keeps alike fs.root files.root
  /-- The working folder is the same. -/
  workingFolder : files.workingFolder = fs.workingFolder

/-- A file tree keeps what it has. -/
theorem Keeps.refl (fs : FileSystem) : Keeps Eq fs fs :=
  ⟨fun _ node hnode => ⟨node, hnode, .refl (fun _ => rfl) node⟩, rfl⟩

/-- What is kept at first and then is kept. -/
theorem Keeps.trans {last : FileSystem} (hfirst : Keeps Eq fs files)
    (hsecond : Keeps Eq files last) : Keeps Eq fs last := by
  refine ⟨fun location node hnode => ?_, hsecond.workingFolder.trans hfirst.workingFolder⟩
  obtain ⟨between, hbetween, hlike⟩ := hfirst.root _ _ hnode
  obtain ⟨node', hnode', hlike'⟩ := hsecond.root _ _ hbetween
  refine ⟨node', hnode', ?_⟩
  cases hlike with
  | file hcontent =>
    cases hlike' with
    | file hcontent' => exact .file (hcontent.trans hcontent')
  | link => exact hlike'
  | folder =>
    cases hlike' with
    | folder => exact .folder

/-- A path starts from the trail of the same location in a tree that keeps what the tree has. -/
theorem start_of_keeps (hkeeps : Keeps alike fs files) (hstart : fs.start path = .ok trail) :
    ∃ trail', files.start path = .ok trail' ∧ Trail.location trail' = Trail.location trail := by
  obtain ⟨hended, hgiven, hsize, htrail⟩ := start_eq_ok_iff.mp hstart
  cases habsolute : Path.isAbsolute path with
  | true =>
    simp only [habsolute, if_true] at htrail
    exact ⟨[], start_eq_ok_iff.mpr ⟨hended, hgiven, hsize, by simp [habsolute]⟩, by rw [htrail]⟩
  | false =>
    simp only [habsolute, Bool.false_eq_true, if_false] at htrail
    obtain ⟨found, hfound⟩ := exists_trail?_iff.mp ⟨trail, htrail⟩
    obtain ⟨found', hfound', -⟩ := hkeeps.root _ _ hfound
    obtain ⟨trail', htrail'⟩ := exists_trail?_iff.mpr ⟨found', hfound'⟩
    refine ⟨trail', start_eq_ok_iff.mpr ⟨hended, hgiven, hsize, ?_⟩, ?_⟩
    · simpa [habsolute, hkeeps.workingFolder] using htrail'
    · rw [location_of_trail? htrail', location_of_trail? htrail]

/-- A path leads to the same location in a tree that keeps what the tree has. A name that the tree
does not have leads to the file that is there then. -/
theorem resolve_of_keeps (hkeeps : Keeps alike fs files)
    (hdestination : fs.destination makesFile path = .ok destination)
    (hmade : ∀ folder name, destination = .vacancy folder name → makesFile = true ∧
      ∃ content, files.root.at? (folder ++ [name]) = some (.file content)) :
    files.resolve path = .ok destination.place := by
  obtain ⟨trail, hstart, hfollow⟩ := bind_eq_ok_iff.mp hdestination
  obtain ⟨trail', hstart', hlocation⟩ := start_of_keeps hkeeps hstart
  have hfollow' := follow_of_keeps hkeeps.root (isTrail_of_start hstart)
    (isTrail_of_start hstart') hlocation hfollow hmade
  have hdestination' : files.destination false path = .ok (.node destination.place) :=
    bind_eq_ok_iff.mpr ⟨trail', hstart', hfollow'⟩
  rw [resolve, hdestination']

/-- A file is read at the location that its path leads to. -/
theorem read_of_resolve (hresolve : fs.resolve path = .ok location)
    (hfile : fs.root.at? location = some (.file content)) : fs.read path = .ok content :=
  read_of_node? (node?_of_resolve hresolve hfile)

/-- A file that can be read is read at the location that its path leads to. -/
theorem exists_resolve_of_read (hread : fs.read path = .ok content) :
    ∃ location, fs.destination false path = .ok (.node location) ∧
      fs.root.at? location = some (.file content) := by
  obtain ⟨node, hnode, hcontent⟩ := bind_eq_ok_iff.mp hread
  obtain ⟨location, hresolve, hat⟩ := bind_eq_ok_iff.mp hnode
  cases node with
  | folder children => cases hcontent
  | link target => cases hcontent
  | file content =>
    cases hcontent
    refine ⟨location, ?_, ?_⟩
    · unfold resolve at hresolve
      split at hresolve <;> cases hresolve
      assumption
    · split at hat <;> cases hat
      assumption

/-- A file can be read as before in a tree that keeps what the tree has. -/
theorem Keeps.read (hkeeps : Keeps Eq fs files) (hread : fs.read path = .ok content) :
    files.read path = .ok content := by
  obtain ⟨location, hdestination, hfile⟩ := exists_resolve_of_read hread
  obtain ⟨node', hnode', hlike⟩ := hkeeps.root _ _ hfile
  cases hlike with
  | file hcontent =>
    cases hcontent
    exact read_of_resolve (resolve_of_keeps hkeeps hdestination nofun) hnode'

/-- What was written at a path is what is read there. -/
theorem read_write (hwrite : fs.write path content = .ok files) :
    files.read path = .ok content := by
  obtain ⟨destination, hdestination, hplaced⟩ := bind_eq_ok_iff.mp hwrite
  have hstays : ∀ location, (Node.put (.file content) location fs.root).at? location =
      some (.file content) := fun location => Node.at?_put _ location fs.root
  cases destination with
  | vacancy folder name =>
    obtain ⟨trail, hstart, hfollow⟩ := bind_eq_ok_iff.mp hdestination
    obtain ⟨children, hfolder, hvacant⟩ := folder_of_vacancy (isTrail_of_start hstart) hfollow
    cases hplaced
    have hkeeps : Keeps Eq fs
        { fs with root := Node.put (.file content) (folder ++ [name]) fs.root } :=
      ⟨Node.keeps_put_vacancy (fun _ => rfl) hfolder hvacant _, rfl⟩
    refine read_of_resolve (resolve_of_keeps hkeeps hdestination ?_) (hstays _)
    rintro _ _ ⟨⟩
    exact ⟨rfl, content, hstays _⟩
  | node location =>
    simp only at hplaced
    split at hplaced
    · rename_i old hfile
      cases hplaced
      exact read_of_resolve
        (resolve_of_keeps ⟨Node.keeps_put_file hfile, rfl⟩ hdestination nofun) (hstays _)
    · cases hplaced

/-- That a file can be saved at a path: its folder is there or can be made, and a file can be
written there then. -/
def TakesFile (fs : FileSystem) (path : String) : Prop :=
  ∃ made content files, fs.makeFolders ((Path.parent? path).getD "") = (made, .ok ()) ∧
    made.write path content = .ok files

/-- Whether a file can be written does not depend on its bytes. -/
theorem exists_write_of_write (hwrite : fs.write path content = .ok files) (other : Bytes) :
    ∃ files', fs.write path other = .ok files' := by
  obtain ⟨destination, hdestination, hplaced⟩ := bind_eq_ok_iff.mp hwrite
  simp only [write, hdestination, bind, Except.bind]
  cases destination with
  | vacancy folder name => exact ⟨_, rfl⟩
  | node location =>
    simp only at hplaced ⊢
    split at hplaced
    · exact ⟨_, rfl⟩
    · cases hplaced

/-- A name that nothing in the working folder has takes a file. -/
theorem takesFile_of_isName (hname : IsName name) (hparent : Path.parent? name = some "")
    (hlookup : children.lookup name = none) :
    (FileSystem.mk (.folder children) []).TakesFile name := by
  have hfolders : (FileSystem.mk (.folder children) []).makeFolders "" =
      (⟨.folder children, []⟩, .ok ()) := rfl
  have hfollow : follow (.folder children) true maxLinks [name] [] = .ok (.vacancy [] name) := by
    rw [follow]
    simp [hname.tells, hname.stays, Nat.not_lt.mpr hname.short, hlookup, Trail.location]
  have hdestination : (FileSystem.mk (.folder children) []).destination true name =
      .ok (.vacancy [] name) := by
    simp only [destination, start_of_isName hname, hname.alone, bind, Except.bind, hfollow]
  have hwrite : (FileSystem.mk (.folder children) []).write name [] =
      .ok ⟨.put (.file []) [name] (.folder children), []⟩ := by
    simp only [write, hdestination, bind, Except.bind]
    rfl
  refine ⟨_, [], _, ?_, hwrite⟩
  rw [hparent]
  exact hfolders

/-- A new folder takes nothing away. -/
theorem keeps_makeFolder (hmade : fs.makeFolder path = .ok files) : Keeps Eq fs files := by
  obtain ⟨trail, -, hmade⟩ := bind_eq_ok_iff.mp hmade
  split at hmade
  · cases hmade
  · obtain ⟨destination, -, hmade⟩ := bind_eq_ok_iff.mp hmade
    split at hmade
    · cases hmade
    · split at hmade
      · rename_i folder _ children hfolder
        repeat (split at hmade; · cases hmade)
        rename_i hvacant
        cases hmade
        rw [Option.not_isSome_iff_eq_none] at hvacant
        exact ⟨Node.keeps_put_vacancy (fun _ => rfl) hfolder hvacant _, rfl⟩
      · cases hmade

/-- Neither do new folders, made or not. -/
theorem keeps_makeFolders (fs : FileSystem) (path : String) :
    Keeps Eq fs (fs.makeFolders path).1 := by
  have hsettle : ∀ (fs : FileSystem) path, Keeps Eq fs (makeFolders.settle fs path).1 := by
    intro fs path
    unfold makeFolders.settle
    split
    · exact keeps_makeFolder ‹_›
    · split <;> exact .refl fs
  have hgo : ∀ fuel (fs : FileSystem) path, Keeps Eq fs (makeFolders.go fuel fs path).1 := by
    intro fuel
    induction fuel with
    | zero => exact fun fs _ => .refl fs
    | succ fuel ih =>
      intro fs path
      unfold makeFolders.go
      split
      · exact .refl fs
      · split
        · exact keeps_makeFolder ‹_›
        · split
          · exact .refl fs
          · rename_i above _
            have habove := ih fs above
            split <;> rename_i hends <;> rw [hends] at habove
            · exact habove
            · exact habove.trans (hsettle _ _)
        · split <;> exact .refl fs
  exact hgo path.length fs path

end FileSystem

end JarCensus
