import Mathlib.Data.List.Infix
import JarCensus.FileSystem.Walk
import JarCensus.Proofs.FileSystem.Following

/-!
# What a walk comes to

A walk of a well-formed tree comes to every node below its start that no ignore file hides and
that is in no hidden folder, and it comes there once. The path of the visit leads to the node.
-/

namespace JarCensus

namespace Walk

open Ignore (Scope)

variable {walk : Walk} {scopes : List Scope} {path name : String} {names below : List String}
  {node : Node} {children : List (String × Node)} {visit : Visit} {isFolder : Bool}

/-- The path of a walk to the node of the given names below the start. -/
def pathOf (walk : Walk) (names : List String) : String := names.foldl Path.join walk.start

/-- The scopes of the folders from the start to the one of the given names, innermost first. -/
def scopesAt (walk : Walk) (names : List String) : List Scope :=
  names.inits.reverse.filterMap fun above => Ignore.scope? walk.files (walk.pathOf above)

/-- Whether ignore files hide the node of the given names. -/
def isHidden (walk : Walk) (names : List String) (isFolder : Bool) : Bool :=
  walk.hides (walk.scopesAt names.dropLast) (walk.pathOf names) isFolder

/-- That neither the node of the given names is hidden nor a folder on the way to it. -/
def Shows (walk : Walk) (names : List String) (isFolder : Bool) : Prop :=
  walk.isHidden names isFolder = false ∧
    ∀ above, above ≠ [] → above <+: names → above ≠ names → walk.isHidden above true = false

/-- That neither a node below the given names is hidden, nor a folder on the way from there. -/
def ShowsFrom (walk : Walk) (names below : List String) (isFolder : Bool) : Prop :=
  walk.isHidden (names ++ below) isFolder = false ∧
    ∀ more, more <+: below → more ≠ below → walk.isHidden (names ++ more) true = false

/-- The visit to the node of the given names. -/
def visitOf (walk : Walk) (names : List String) (node : Node) : Visit :=
  ⟨names, walk.pathOf names, node.isFolder⟩

/-- The path goes on to the last name. -/
theorem pathOf_append_singleton (walk : Walk) (names : List String) (name : String) :
    walk.pathOf (names ++ [name]) = Path.join (walk.pathOf names) name := by
  simp [pathOf, List.foldl_append]

/-- The scope of the last folder comes first. -/
theorem scopesAt_append_singleton (walk : Walk) (names : List String) (name : String) :
    walk.scopesAt (names ++ [name]) =
      walk.enter (walk.scopesAt names) (walk.pathOf (names ++ [name])) := by
  have hinits : (names ++ [name]).inits.reverse = (names ++ [name]) :: names.inits.reverse := by
    simp [List.inits_append]
  rw [scopesAt, hinits, List.filterMap_cons, enter, scopesAt]
  cases Ignore.scope? walk.files (walk.pathOf (names ++ [name])) <;> rfl

/-- The scope of the start is the only one there. -/
theorem scopesAt_nil (walk : Walk) : walk.scopesAt [] = walk.enter [] walk.start := by
  simp only [scopesAt, enter, pathOf, List.inits, List.reverse_singleton, List.append_nil]
  cases hscope : Ignore.scope? walk.files walk.start <;> simp [hscope]

section Shows

/-- The node of the given names is shown when it is not hidden. -/
theorem showsFrom_nil :
    walk.ShowsFrom names [] isFolder ↔ walk.isHidden names isFolder = false := by
  simp [ShowsFrom]

/-- A node further down is shown when the first folder on the way is not hidden and the node is
shown from the next one on. -/
theorem showsFrom_cons : walk.ShowsFrom names (name :: below) isFolder ↔
    walk.isHidden names true = false ∧ walk.ShowsFrom (names ++ [name]) below isFolder := by
  constructor
  · rintro ⟨hnode, hway⟩
    refine ⟨by simpa using hway [] (List.nil_prefix) (by simp), by simpa using hnode, ?_⟩
    intro more hmore hne
    have hnext := hway (name :: more) (List.cons_prefix_cons.mpr ⟨rfl, hmore⟩) (by simpa using hne)
    simpa using hnext
  · rintro ⟨hfirst, hnode, hway⟩
    refine ⟨by simpa using hnode, fun more hmore hne => ?_⟩
    rcases List.prefix_cons_iff.mp hmore with rfl | ⟨rest, rfl, hrest⟩
    · simpa using hfirst
    · have hnext := hway rest hrest (by simpa using hne)
      simpa using hnext

/-- What is shown is shown from the first name on. -/
theorem shows_cons_iff :
    walk.Shows (name :: below) isFolder ↔ walk.ShowsFrom [name] below isFolder := by
  constructor
  · rintro ⟨hnode, hway⟩
    refine ⟨hnode, fun more hmore hne => ?_⟩
    exact hway (name :: more) (by simp) (List.cons_prefix_cons.mpr ⟨rfl, hmore⟩)
      (by simpa using hne)
  · rintro ⟨hnode, hway⟩
    refine ⟨hnode, fun above hgiven habove hne => ?_⟩
    rcases List.prefix_cons_iff.mp habove with rfl | ⟨more, rfl, hmore⟩
    · exact absurd rfl hgiven
    · exact hway more hmore (by simpa using hne)

/-- What is in the folder that is walked is shown when it is not hidden. -/
theorem shows_singleton : walk.Shows [name] isFolder ↔ walk.isHidden [name] isFolder = false := by
  rw [shows_cons_iff, showsFrom_nil]

end Shows

/-- The visits below a folder are those to its children and below them. -/
theorem fromChildren_eq (walk : Walk) (scopes : List Scope) (path : String)
    (names : List String) (children : List (String × Node)) :
    walk.fromChildren scopes path names children = children.flatMap fun child =>
      walk.fromNode scopes (Path.join path child.1) (names ++ [child.1]) child.2 := by
  induction children with
  | nil => rfl
  | cons child rest ih => rw [fromChildren, fromChild, ih, List.flatMap_cons]

/-- The visits to a node that is no folder. -/
theorem fromNode_of_leaf (hleaf : node.isFolder = false) :
    walk.fromNode scopes path names node =
      if walk.hides scopes path false then [] else [⟨names, path, false⟩] := by
  cases node with
  | folder children => cases hleaf
  | file content => rfl
  | link target => rfl

/-- That visits are those to the nodes at and below a node that are shown from there on. -/
def Covers (walk : Walk) (names : List String) (node : Node) (visits : List Visit) : Prop :=
  ∀ visit, visit ∈ visits ↔ ∃ below target, node.at? below = some target ∧
    walk.ShowsFrom names below target.isFolder ∧ visit = walk.visitOf (names ++ below) target

/-- A node that is no folder is visited unless it is hidden. -/
theorem covers_fromNode_of_leaf (hleaf : node.isFolder = false) :
    walk.Covers names node
      (walk.fromNode (walk.scopesAt names.dropLast) (walk.pathOf names) names node) := by
  have hvisit : walk.visitOf names node = ⟨names, walk.pathOf names, false⟩ := by
    simp [visitOf, hleaf]
  intro visit
  rw [fromNode_of_leaf hleaf, ← hvisit]
  constructor
  · intro hmem
    split at hmem
    · cases hmem
    · rename_i hshown
      refine ⟨[], node, (Node.at?_eq_some_iff_of_leaf hleaf).mpr ⟨rfl, rfl⟩, ?_,
        by simpa using hmem⟩
      rw [showsFrom_nil, hleaf]
      simpa [isHidden] using hshown
  · rintro ⟨below, target, hat, hshown, rfl⟩
    obtain ⟨rfl, rfl⟩ := (Node.at?_eq_some_iff_of_leaf hleaf).mp hat
    rw [showsFrom_nil, hleaf, isHidden] at hshown
    simp [hshown]

/-- What is visited of the children of a folder is what is visited below the folder. -/
theorem mem_fromChildren_iff (hdistinct : (children.map (·.1)).Nodup)
    (hcovers : ∀ child ∈ children, walk.Covers (names ++ [child.1]) child.2
      (walk.fromNode (walk.scopesAt names) (walk.pathOf (names ++ [child.1]))
        (names ++ [child.1]) child.2)) :
    visit ∈ walk.fromChildren (walk.scopesAt names) (walk.pathOf names) names children ↔
      ∃ name below target, (Node.folder children).at? (name :: below) = some target ∧
        walk.ShowsFrom (names ++ [name]) below target.isFolder ∧
        visit = walk.visitOf (names ++ name :: below) target := by
  simp only [fromChildren_eq, ← pathOf_append_singleton, List.mem_flatMap,
    Node.at?_cons_eq_some_iff hdistinct]
  constructor
  · rintro ⟨child, hchild, hvisit⟩
    obtain ⟨below, target, hat, hshows, rfl⟩ := (hcovers child hchild visit).mp hvisit
    exact ⟨child.1, below, target, ⟨child, hchild, rfl, hat⟩, hshows, by simp⟩
  · rintro ⟨name, below, target, ⟨child, hchild, rfl, hat⟩, hshows, rfl⟩
    exact ⟨child, hchild, (hcovers child hchild _).mpr ⟨below, target, hat, hshows, by simp⟩⟩

/-- The nodes at and below a node are visited that are shown from there on. -/
theorem covers_fromNode (hnode : node.WellFormed) (hnames : names ≠ []) :
    walk.Covers names node
      (walk.fromNode (walk.scopesAt names.dropLast) (walk.pathOf names) names node) := by
  induction node using Node.induction generalizing names with
  | file content => exact covers_fromNode_of_leaf rfl
  | link target => exact covers_fromNode_of_leaf rfl
  | folder children ih =>
    obtain ⟨-, hdistinct, hchildren⟩ := Node.wellFormed_folder_iff.mp hnode
    have henter : walk.enter (walk.scopesAt names.dropLast) (walk.pathOf names) =
        walk.scopesAt names := by
      conv_rhs => rw [← List.dropLast_append_getLast hnames, scopesAt_append_singleton,
        List.dropLast_append_getLast hnames]
    have hcovers : ∀ child ∈ children, walk.Covers (names ++ [child.1]) child.2
        (walk.fromNode (walk.scopesAt names) (walk.pathOf (names ++ [child.1]))
          (names ++ [child.1]) child.2) := by
      intro child hchild
      have hlonger : names ++ [child.1] ≠ [] := by simp
      have hchildCovers := ih child hchild (hchildren child hchild) hlonger
      rwa [List.dropLast_concat] at hchildCovers
    intro visit
    rw [fromNode, henter, ← isHidden]
    constructor
    · intro hmem
      split at hmem
      · cases hmem
      · rename_i hshown
        replace hshown := eq_false_of_ne_true hshown
        rcases List.mem_cons.mp hmem with rfl | hmem
        · exact ⟨[], .folder children, rfl, showsFrom_nil.mpr hshown,
            by simp [visitOf, Node.isFolder]⟩
        · obtain ⟨name, below, target, hat, hshows, rfl⟩ :=
            (mem_fromChildren_iff hdistinct hcovers).mp hmem
          exact ⟨name :: below, target, hat, showsFrom_cons.mpr ⟨hshown, hshows⟩, rfl⟩
    · rintro ⟨below, target, hat, hshows, rfl⟩
      cases below with
      | nil =>
        obtain rfl : Node.folder children = target := Option.some.inj hat
        have hshown : walk.isHidden names true = false := showsFrom_nil.mp hshows
        rw [if_neg (by simp [hshown])]
        simp [visitOf, Node.isFolder]
      | cons name below =>
        obtain ⟨hshown, hshows⟩ := showsFrom_cons.mp hshows
        rw [if_neg (by simp [hshown])]
        exact List.mem_cons_of_mem _ ((mem_fromChildren_iff hdistinct hcovers).mpr
          ⟨name, below, target, hat, hshows, rfl⟩)

/-- The visits of a walk are those to the nodes below its start that are shown. -/
theorem mem_visits_iff (hchildren : walk.children? = some children)
    (hfolder : (Node.folder children).WellFormed) :
    visit ∈ walk.visits ↔ ∃ names node, names ≠ [] ∧
      (Node.folder children).at? names = some node ∧ walk.Shows names node.isFolder ∧
      visit = walk.visitOf names node := by
  obtain ⟨-, hdistinct, hwellFormed⟩ := Node.wellFormed_folder_iff.mp hfolder
  have hcovers : ∀ child ∈ children, walk.Covers ([] ++ [child.1]) child.2
      (walk.fromNode (walk.scopesAt []) (walk.pathOf ([] ++ [child.1])) ([] ++ [child.1])
        child.2) :=
    fun child hchild => covers_fromNode (hwellFormed child hchild) (by simp)
  have hvisits : walk.visits =
      walk.fromChildren (walk.scopesAt []) (walk.pathOf []) [] children := by
    rw [visits, hchildren, scopesAt_nil]
    rfl
  rw [hvisits, mem_fromChildren_iff hdistinct hcovers]
  constructor
  · rintro ⟨name, below, target, hat, hshows, rfl⟩
    exact ⟨name :: below, target, by simp, hat, shows_cons_iff.mpr hshows, rfl⟩
  · rintro ⟨names, node, hgiven, hat, hshows, rfl⟩
    obtain ⟨name, below, rfl⟩ := List.exists_cons_of_ne_nil hgiven
    exact ⟨name, below, node, hat, shows_cons_iff.mp hshows, rfl⟩

section Once

/-- The names of a visit go on from the names of the node that the walk came from. -/
theorem prefix_of_mem_fromNode (hvisit : visit ∈ walk.fromNode scopes path names node) :
    names <+: visit.names := by
  induction node using Node.induction generalizing scopes path names with
  | file content =>
    rw [fromNode_of_leaf rfl] at hvisit
    split at hvisit <;> simp_all
  | link target =>
    rw [fromNode_of_leaf rfl] at hvisit
    split at hvisit <;> simp_all
  | folder children ih =>
    rw [fromNode, fromChildren_eq] at hvisit
    split at hvisit
    · cases hvisit
    · rcases List.mem_cons.mp hvisit with rfl | hvisit
      · exact List.prefix_refl names
      · obtain ⟨child, hchild, hvisit⟩ := List.mem_flatMap.mp hvisit
        exact (List.prefix_append names _).trans (ih child hchild hvisit)

/-- No node below a folder is visited twice when none below a child is. -/
theorem nodup_fromChildren (hdistinct : (children.map (·.1)).Nodup)
    (honce : ∀ child ∈ children,
      ((walk.fromNode scopes (Path.join path child.1) (names ++ [child.1]) child.2).map
        (·.names)).Nodup) :
    ((walk.fromChildren scopes path names children).map (·.names)).Nodup := by
  rw [fromChildren_eq, List.map_flatMap]
  refine List.pairwise_flatMap.mpr ⟨honce, ?_⟩
  refine (List.pairwise_map.mp hdistinct).imp ?_
  intro child other hne x hx y hy hsame
  obtain ⟨visit, hvisit, rfl⟩ := List.mem_map.mp hx
  obtain ⟨visit', hvisit', rfl⟩ := List.mem_map.mp hy
  have hprefix := prefix_of_mem_fromNode hvisit
  rw [hsame] at hprefix
  have hequal := List.prefix_of_prefix_length_le hprefix (prefix_of_mem_fromNode hvisit') (by simp)
  have hnames := hequal.eq_of_length (by simp)
  exact hne (by simpa using hnames)

/-- No node at or below a node is visited twice. -/
theorem nodup_fromNode (hnode : node.WellFormed) :
    ((walk.fromNode scopes path names node).map (·.names)).Nodup := by
  induction node using Node.induction generalizing scopes path names with
  | file content =>
    rw [fromNode_of_leaf rfl]
    split <;> simp
  | link target =>
    rw [fromNode_of_leaf rfl]
    split <;> simp
  | folder children ih =>
    obtain ⟨-, hdistinct, hchildren⟩ := Node.wellFormed_folder_iff.mp hnode
    rw [fromNode]
    split
    · exact List.nodup_nil
    · rw [List.map_cons, List.nodup_cons]
      refine ⟨?_, nodup_fromChildren hdistinct fun child hchild =>
        ih child hchild (hchildren child hchild)⟩
      intro hmem
      obtain ⟨visit, hvisit, hsame⟩ := List.mem_map.mp hmem
      rw [fromChildren_eq] at hvisit
      obtain ⟨child, -, hvisit⟩ := List.mem_flatMap.mp hvisit
      have hlonger := (prefix_of_mem_fromNode hvisit).length_le
      simp only [hsame, List.length_append, List.length_singleton] at hlonger
      omega

/-- No node below the start is visited twice. -/
theorem nodup_visits (hchildren : walk.children? = some children)
    (hfolder : (Node.folder children).WellFormed) : (walk.visits.map (·.names)).Nodup := by
  obtain ⟨-, hdistinct, hwellFormed⟩ := Node.wellFormed_folder_iff.mp hfolder
  rw [visits, hchildren]
  exact nodup_fromChildren hdistinct fun child hchild => nodup_fromNode (hwellFormed child hchild)

end Once

end Walk

end JarCensus
