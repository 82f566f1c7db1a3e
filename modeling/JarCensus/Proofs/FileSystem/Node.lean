import JarCensus.Proofs.FileSystem.Name
import JarCensus.Proofs.Named

/-!
# Trees of nodes

What holds of a tree is proved by induction on its nodes. In a well-formed tree the children of a
folder have names of their own, so a list of names leads to one node at most, and each child is
led to by its name.
-/

namespace JarCensus.Node

/-- A node further down is reached through the node on the way. -/
theorem at?_append (node : Node) (first second : Location) :
    node.at? (first ++ second) = (node.at? first).bind (·.at? second) := by
  induction first generalizing node with
  | nil => cases node <;> simp [at?]
  | cons name rest ih =>
    cases node with
    | folder children => cases hchild : children.lookup name <;> simp [at?, hchild, ih]
    | file content => rfl
    | link target => rfl

/-- The node of a name in a folder. -/
theorem at?_append_singleton {node : Node} {location : Location}
    {children : List (String × Node)} (hfolder : node.at? location = some (.folder children))
    (name : String) : node.at? (location ++ [name]) = children.lookup name := by
  rw [at?_append, hfolder, Option.bind_some, at?]
  cases children.lookup name with
  | none => rfl
  | some child => cases child <;> rfl

/-- A child is smaller than its folder. -/
theorem sizeOf_child_lt {children : List (String × Node)} {child : String × Node}
    (hchild : child ∈ children) : sizeOf child.2 < sizeOf (folder children) := by
  have hsize := List.sizeOf_lt_of_mem hchild
  obtain ⟨name, node⟩ := child
  simp only [Prod.mk.sizeOf_spec] at hsize
  simp only [folder.sizeOf_spec]
  omega

/-- What holds of files and links, and of a folder when it holds of its children, holds of all
nodes. -/
@[elab_as_elim]
theorem induction {motive : Node → Prop} (file : ∀ content, motive (.file content))
    (link : ∀ target, motive (.link target))
    (folder : ∀ children, (∀ child ∈ children, motive child.2) → motive (.folder children)) :
    ∀ node, motive node
  | .file content => file content
  | .link target => link target
  | .folder children => folder children fun child (_ : child ∈ children) =>
    induction file link folder child.2
termination_by node => sizeOf node
decreasing_by exact sizeOf_child_lt ‹_›

/-- Whether a node is a folder. -/
def isFolder : Node → Bool
  | folder _ => true
  | _ => false

/-- That the children of every folder of a tree have names of their own, each of which is a name
that a node can have. -/
inductive WellFormed : Node → Prop
  /-- A file. -/
  | file (content : Bytes) : WellFormed (file content)
  /-- A link. -/
  | link (target : String) : WellFormed (link target)
  /-- A folder. -/
  | folder {children : List (String × Node)}
    (hnames : ∀ child ∈ children, FileSystem.IsName child.1)
    (hdistinct : (children.map (·.1)).Nodup) (hchildren : ∀ child ∈ children, WellFormed child.2) :
    WellFormed (folder children)

variable {children : List (String × Node)} {name : String} {node child : Node}
  {location : Location}

/-- What the form of a folder says of its children. -/
theorem wellFormed_folder_iff : (folder children).WellFormed ↔
    (∀ child ∈ children, FileSystem.IsName child.1) ∧ (children.map (·.1)).Nodup ∧
      ∀ child ∈ children, child.2.WellFormed := by
  constructor
  · intro hfolder
    cases hfolder with
    | folder hnames hdistinct hchildren => exact ⟨hnames, hdistinct, hchildren⟩
  · rintro ⟨hnames, hdistinct, hchildren⟩
    exact .folder hnames hdistinct hchildren

/-- A node that is no folder is the only one at and below itself. -/
theorem at?_eq_some_iff_of_leaf (hleaf : node.isFolder = false) :
    node.at? location = some child ↔ location = [] ∧ child = node := by
  cases location with
  | nil => cases node <;> simp [Node.at?, eq_comm]
  | cons name rest =>
    cases node with
    | folder children => cases hleaf
    | file content => simp [Node.at?]
    | link target => simp [Node.at?]

/-- A node further down in a folder is in the child of the first name. -/
theorem at?_cons_eq_some_iff (hdistinct : (children.map (·.1)).Nodup) :
    (folder children).at? (name :: location) = some node ↔
      ∃ child ∈ children, child.1 = name ∧ child.2.at? location = some node := by
  simp only [at?, Option.bind_eq_bind, Option.bind_eq_some_iff, lookup_eq_some_iff_mem hdistinct]
  constructor
  · rintro ⟨child, hchild, hat⟩
    exact ⟨(name, child), hchild, rfl, hat⟩
  · rintro ⟨child, hchild, rfl, hat⟩
    exact ⟨child.2, hchild, hat⟩

/-- A folder without folders in it has no nodes but its children. -/
theorem names_of_at?_of_flat (hdistinct : (children.map (·.1)).Nodup)
    (hflat : ∀ child ∈ children, child.2.isFolder = false)
    (hat : (folder children).at? location = some node) :
    location = [] ∨ ∃ child ∈ children, location = [child.1] := by
  cases location with
  | nil => exact .inl rfl
  | cons name rest =>
    obtain ⟨child, hchild, rfl, hrest⟩ := (at?_cons_eq_some_iff hdistinct).mp hat
    obtain ⟨rfl, -⟩ := (at?_eq_some_iff_of_leaf (hflat child hchild)).mp hrest
    exact .inr ⟨child, hchild, rfl⟩

/-- A node that is no folder is well-formed. -/
theorem wellFormed_of_leaf (hleaf : node.isFolder = false) : node.WellFormed := by
  cases node with
  | folder children => cases hleaf
  | file content => exact .file content
  | link target => exact .link target

/-- The nodes of a well-formed tree are well-formed. -/
theorem WellFormed.at? (hnode : node.WellFormed) (hchild : node.at? location = some child) :
    child.WellFormed := by
  induction location generalizing node with
  | nil =>
    have hself : node = child := by cases node <;> simpa [Node.at?] using hchild
    exact hself ▸ hnode
  | cons name rest ih =>
    cases hnode with
    | file content => cases hchild
    | link target => cases hchild
    | folder hnames hdistinct hchildren =>
      obtain ⟨inner, hlookup, hrest⟩ := Option.bind_eq_some_iff.mp hchild
      exact ih (hchildren _ ((lookup_eq_some_iff_mem hdistinct).mp hlookup)) hrest

/-- The names on the way to a node of a well-formed tree are names that a node can have. -/
theorem WellFormed.isName_of_at? (hnode : node.WellFormed)
    (hchild : node.at? location = some child) : ∀ name ∈ location, FileSystem.IsName name := by
  induction location generalizing node with
  | nil => simp
  | cons name rest ih =>
    cases hnode with
    | file content => cases hchild
    | link target => cases hchild
    | folder hnames hdistinct hchildren =>
      obtain ⟨inner, hlookup, hrest⟩ := Option.bind_eq_some_iff.mp hchild
      have hmem := (lookup_eq_some_iff_mem hdistinct).mp hlookup
      exact List.forall_mem_cons.mpr ⟨hnames _ hmem, ih (hchildren _ hmem) hrest⟩

end JarCensus.Node
