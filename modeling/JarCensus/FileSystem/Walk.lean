import JarCensus.FileSystem.Ignore

/-!
# Walking folders

A walk visits what is below a folder, leaves out what ignore files hide, and does not
enter links. A hidden folder is not entered. The start itself is never hidden, and a
start that is a link is followed. Ignore files below the start go before those above it.
The path `-` stands for the standard input, below which nothing is.
-/

namespace JarCensus

/-- A walk below a folder. -/
structure Walk where
  /-- The files that are walked. -/
  files : FileSystem
  /-- The path of the folder. -/
  start : String
  /-- The location of the folder. -/
  location : Location
  /-- The scopes of the folders above, innermost first. -/
  above : List Ignore.Scope

namespace Walk

/-- Whether a path stands for the standard input. -/
def isStandardInput (path : String) : Bool := Path.parts path == ["-"]

/-- The walk from a start path. -/
def ofStart (fs : FileSystem) (start : String) : Except FileError Walk := do
  let location ← if isStandardInput start then pure [] else fs.resolve start
  return ⟨fs, start, location, Ignore.scopesAbove fs location⟩

/-- The nodes in the folder that is walked, if it is one. -/
def children? (walk : Walk) : Option (List (String × Node)) :=
  match walk.files.root.at? walk.location with
  | some (.folder children) => if isStandardInput walk.start then none else some children
  | _ => none

/-- The path from the root on that a path below the start stands for. It is told by the
text of the path. -/
def fromRoot (walk : Walk) (path : List Char) : List Char :=
  let rest :=
    if Path.parts walk.start = ["."] then path
    else Ignore.behind (Ignore.dropDot walk.start.toList) path
  (Path.join (Path.ofNames walk.location) (String.ofList rest)).toList

/-- Whether ignore files hide a path. The scopes of the folders between the start and the
path come innermost first. -/
def hides (walk : Walk) (scopes : List Ignore.Scope) (path : String) (isFolder : Bool) : Bool :=
  let path := Ignore.dropDot path.toList
  let verdict? :=
    Ignore.Scope.verdict? scopes path isFolder <|>
      Ignore.Scope.verdict? walk.above (walk.fromRoot path) isFolder
  verdict? == some .hide

/-- The scopes in the folder at a path within the given scopes. -/
def enter (walk : Walk) (scopes : List Ignore.Scope) (path : String) : List Ignore.Scope :=
  (Ignore.scope? walk.files path).toList ++ scopes

/-- A node that a walk comes to. -/
structure Visit where
  /-- The names from the start to the node. -/
  names : List String
  /-- The path of the node. -/
  path : String
  /-- Whether the node is a folder. -/
  isFolder : Bool
  deriving DecidableEq, Repr

mutual

/-- The visits to a node at a path and to what is below it, as far as they are not
hidden. -/
def fromNode (walk : Walk) (scopes : List Ignore.Scope) (path : String) (names : List String) :
    Node → List Visit
  | .folder children =>
    if walk.hides scopes path true then []
    else ⟨names, path, true⟩ :: fromChildren walk (walk.enter scopes path) path names children
  | .file _ | .link _ => if walk.hides scopes path false then [] else [⟨names, path, false⟩]

/-- The visits to the nodes of a folder and to what is below them. -/
def fromChildren (walk : Walk) (scopes : List Ignore.Scope) (path : String)
    (names : List String) : List (String × Node) → List Visit
  | [] => []
  | child :: rest =>
    fromChild walk scopes path names child ++ fromChildren walk scopes path names rest

/-- The visits to one node of a folder and to what is below it. -/
def fromChild (walk : Walk) (scopes : List Ignore.Scope) (path : String) (names : List String) :
    String × Node → List Visit
  | (name, node) => fromNode walk scopes (Path.join path name) (names ++ [name]) node

end

/-- The visits to what is below the start. -/
def visits (walk : Walk) : List Visit :=
  match walk.children? with
  | some children => fromChildren walk (walk.enter [] walk.start) walk.start [] children
  | none => []

/-- The visits to files below the start, links to files included. -/
def fileVisits (walk : Walk) : List Visit :=
  walk.visits.filter fun visit => walk.files.isFile visit.path

/-- The path of the first folder that cannot be entered, and why. -/
def obstacle? (walk : Walk) : Option (String × FileError) :=
  (walk.visits.filter (·.isFolder)).findSome? fun visit =>
    match walk.files.resolve visit.path with
    | .ok _ => none
    | .error cause => some (visit.path, cause)

/-- What is to be said of the ignore files above the start, if it is a folder. -/
def complaints (walk : Walk) : List String :=
  if walk.children?.isSome then Ignore.complaintsAbove walk.files walk.location else []

end Walk

end JarCensus
