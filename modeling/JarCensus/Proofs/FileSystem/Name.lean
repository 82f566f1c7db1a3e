import JarCensus.FileSystem.Basic

/-!
# Names in the working folder

A path that is no more than a name leads to the file or folder of that name in the working
folder.
-/

namespace JarCensus.FileSystem

/-- That a path is no more than a name that a node can have. -/
structure IsName (path : String) : Prop where
  /-- The path is not empty. -/
  given : path.isEmpty = false
  /-- The path has no slash. -/
  alone : Path.segments path = [path]
  /-- The path does not start at the root. -/
  relative : Path.isAbsolute path = false
  /-- The name is not a dot. -/
  tells : Path.isIdle path = false
  /-- The name is not that of the folder above. -/
  stays : path ≠ ".."
  /-- The name is not too long. -/
  short : path.utf8ByteSize ≤ maxNameSize
  /-- The name is not cut off by the character of number zero. -/
  whole : path.toList.contains '\x00' = false

variable {children : List (String × Node)} {name : String} {node : Node} {content : Bytes}

/-- A name starts from the working folder. -/
theorem start_of_isName (hname : IsName name) :
    (FileSystem.mk (.folder children) []).start name = .ok [] := by
  have hshort : ¬ maxPathSize < name.utf8ByteSize := by
    have hsize := hname.short
    unfold maxNameSize at hsize
    unfold maxPathSize
    omega
  rw [start, if_neg (by simpa using hname.whole), if_neg (by simp [hname.given]), if_neg hshort,
    if_neg (by simp [hname.relative])]
  rfl

/-- Following the name of a file or a folder leads to it. -/
theorem follow_of_isName (hname : IsName name) (hlookup : children.lookup name = some node)
    (hnode : ∀ target, node ≠ .link target) (links : Nat) :
    follow (.folder children) false links [name] [] = .ok (.node [name]) := by
  have hshort := Nat.not_lt.mpr hname.short
  rw [follow]
  simp only [List.head?_nil, Option.map_none, Option.getD_none, hname.tells, hname.stays, hshort,
    hlookup, Bool.false_and, if_false, Bool.false_eq_true]
  cases node with
  | link target => exact absurd rfl (hnode target)
  | file content =>
    simp only [follow]
    rfl
  | folder children =>
    simp only [follow]
    rfl

/-- The name of a file or a folder leads to its location. -/
theorem resolve_of_isName (hname : IsName name) (hlookup : children.lookup name = some node)
    (hnode : ∀ target, node ≠ .link target) :
    (FileSystem.mk (.folder children) []).resolve name = .ok [name] := by
  simp only [resolve, destination, start_of_isName hname, hname.alone, bind, Except.bind,
    follow_of_isName hname hlookup hnode]

/-- The name of a file or a folder leads to it. -/
theorem node?_of_isName (hname : IsName name) (hlookup : children.lookup name = some node)
    (hnode : ∀ target, node ≠ .link target) :
    (FileSystem.mk (.folder children) []).node? name = .ok node := by
  have hat : (Node.folder children).at? [name] = some node := by
    cases node <;> simp [Node.at?, hlookup]
  simp only [node?, resolve_of_isName hname hlookup hnode, bind, Except.bind, hat]
  rfl

/-- The name of a file gives the bytes of the file. -/
theorem read_of_isName (hname : IsName name)
    (hlookup : children.lookup name = some (.file content)) :
    (FileSystem.mk (.folder children) []).read name = .ok content := by
  simp only [read, node?_of_isName hname hlookup (by simp)]
  rfl

/-- The name of a file leads to a file. -/
theorem isFile_of_isName (hname : IsName name)
    (hlookup : children.lookup name = some (.file content)) :
    (FileSystem.mk (.folder children) []).isFile name = true := by
  simp only [isFile, node?_of_isName hname hlookup (by simp)]

/-- The name of a file does not lead to a folder. -/
theorem isFolder_of_isName (hname : IsName name)
    (hlookup : children.lookup name = some (.file content)) :
    (FileSystem.mk (.folder children) []).isFolder name = false := by
  simp only [isFolder, node?_of_isName hname hlookup (by simp)]

end JarCensus.FileSystem
