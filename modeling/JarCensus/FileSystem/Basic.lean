import JarCensus.Bytes
import JarCensus.FileSystem.Path

/-!
# File trees

A file tree consists of folders, files and symbolic links. A path is followed from
the working folder or from the root, through links, to the location of a node, which
is the list of names from the root to it. Following stops after forty links. A name has
at most 255 bytes, and a path has at most 4095.
-/

namespace JarCensus

/-- Why the file system refuses a request. -/
inductive FileError where
  /-- Nothing is at the path. -/
  | notFound
  /-- Something is at the path already. -/
  | alreadyExists
  /-- A file cannot be mapped. -/
  | noSuchDevice
  /-- A part of the path is not a folder. -/
  | notAFolder
  /-- The path names a folder. -/
  | isAFolder
  /-- The path or a name in it is too long. -/
  | tooLong
  /-- The path leads through too many links. -/
  | tooManyLinks
  /-- The path contains the character of number zero, which ends names. -/
  | endedName
  deriving DecidableEq, Repr

/-- The message of a file error. -/
def FileError.message : FileError → String
  | .notFound => "No such file or directory (os error 2)"
  | .alreadyExists => "File exists (os error 17)"
  | .noSuchDevice => "No such device (os error 19)"
  | .notAFolder => "Not a directory (os error 20)"
  | .isAFolder => "Is a directory (os error 21)"
  | .tooLong => "File name too long (os error 36)"
  | .tooManyLinks => "Too many levels of symbolic links (os error 40)"
  | .endedName => "file name contained an unexpected NUL byte"

/-- A node of a file tree. -/
inductive Node where
  /-- A file with its bytes. -/
  | file (content : Bytes)
  /-- A symbolic link with the path that it stands for. -/
  | link (target : String)
  /-- A folder with its named nodes. -/
  | folder (children : List (String × Node))
  deriving Repr

/-- The names on the way from the root to a node. -/
abbrev Location := List String

namespace Node

/-- The children of a folder. -/
def children : Node → List (String × Node)
  | folder children => children
  | _ => []

/-- The node at a location below a node. -/
def at? : Node → Location → Option Node
  | node, [] => some node
  | folder children, name :: rest => do
    let child ← children.lookup name
    child.at? rest
  | _, _ :: _ => none

/-- The children with one of them set. -/
def setChild (name : String) (node : Node) : List (String × Node) → List (String × Node)
  | [] => [(name, node)]
  | (other, old) :: rest =>
    if other = name then (name, node) :: rest else (other, old) :: setChild name node rest

/-- The tree with a node set at a location. Missing folders on the way are made. -/
def put (node : Node) : Location → Node → Node
  | [], _ => node
  | name :: rest, tree =>
    let child := (tree.children.lookup name).getD (folder [])
    folder (setChild name (put node rest child) tree.children)

mutual

/-- The files and links at and below a node, as names from the given ones on. -/
def leaves (names : List String) : Node → List (List String × Node)
  | folder children => childLeaves names children
  | file content => [(names, file content)]
  | link target => [(names, link target)]

/-- The files and links of the children of a folder. -/
def childLeaves (names : List String) : List (String × Node) → List (List String × Node)
  | [] => []
  | child :: rest => namedLeaves names child ++ childLeaves names rest

/-- The files and links of one child of a folder. -/
def namedLeaves (names : List String) : String × Node → List (List String × Node)
  | (name, node) => leaves (names ++ [name]) node

end

end Node

/-- A file tree and the folder that relative paths start from. -/
structure FileSystem where
  /-- The root folder. -/
  root : Node
  /-- The location of the working folder. -/
  workingFolder : Location

/-- Where a path leads. -/
inductive Destination where
  /-- To a node. -/
  | node (location : Location)
  /-- To a name that a folder does not have. -/
  | vacancy (folder : Location) (name : String)
  deriving DecidableEq, Repr

namespace FileSystem

/-- The number of links that a path may lead through. -/
def maxLinks : Nat := 40

/-- The number of bytes that a name may have. -/
def maxNameSize : Nat := 255

/-- The number of bytes that a path may have. -/
def maxPathSize : Nat := 4095

/-- The nodes on the way to a node, the node itself first, with their names. -/
abbrev Trail := List (String × Node)

/-- The trail from a node to a location below it, behind a trail to the node. -/
def trail? (behind : Trail) : Node → Location → Option Trail
  | _, [] => some behind
  | .folder children, name :: rest => do
    let child ← children.lookup name
    trail? ((name, child) :: behind) child rest
  | _, _ :: _ => none

/-- The location of the node that a trail leads to. -/
def Trail.location (trail : Trail) : Location := (trail.map (·.1)).reverse

/-- Follows segments from the node that a trail leads to. When a file is to be made, a
slash behind the last name says that the name is that of a folder, whatever is there. -/
def follow (root : Node) (makesFile : Bool) (links : Nat) (segments : List String)
    (trail : Trail) : Except FileError Destination :=
  match segments with
  | [] => .ok (.node trail.location)
  | segment :: rest =>
    match (trail.head?.map (·.2)).getD root with
    | .folder children =>
      if Path.isIdle segment then follow root makesFile links rest trail
      else if segment = ".." then follow root makesFile links rest (trail.drop 1)
      else if makesFile && !rest.isEmpty && rest.all (· == "") then .error .isAFolder
      else if maxNameSize < segment.utf8ByteSize then .error .tooLong
      else
        match children.lookup segment with
        | none =>
          if rest.all (· == "") then .ok (.vacancy trail.location segment)
          else .error .notFound
        | some (.link target) =>
          match links with
          | 0 => .error .tooManyLinks
          | links + 1 =>
            follow root makesFile links (Path.segments target ++ rest)
              (if Path.isAbsolute target then [] else trail)
        | some node => follow root makesFile links rest ((segment, node) :: trail)
    | _ => .error .notAFolder
termination_by (links, segments.length)

/-- The trail that a path starts from, if the path can be followed at all. -/
def start (fs : FileSystem) (path : String) : Except FileError Trail :=
  if path.toList.contains '\x00' then .error .endedName
  else if path.isEmpty then .error .notFound
  else if maxPathSize < path.utf8ByteSize then .error .tooLong
  else if Path.isAbsolute path then .ok []
  else
    match trail? [] fs.root fs.workingFolder with
    | some trail => .ok trail
    | none => .error .notFound

/-- Where a path leads, be it to make a file there or not. -/
def destination (fs : FileSystem) (makesFile : Bool) (path : String) :
    Except FileError Destination := do
  follow fs.root makesFile maxLinks (Path.segments path) (← fs.start path)

/-- The location of the node that a path leads to. -/
def resolve (fs : FileSystem) (path : String) : Except FileError Location :=
  match fs.destination false path with
  | .ok (.node location) => .ok location
  | .ok (.vacancy ..) => .error .notFound
  | .error error => .error error

/-- The node that a path leads to. -/
def node? (fs : FileSystem) (path : String) : Except FileError Node := do
  let location ← fs.resolve path
  match fs.root.at? location with
  | some node => return node
  | none => throw .notFound

/-- Whether a path leads to a file. -/
def isFile (fs : FileSystem) (path : String) : Bool :=
  match fs.node? path with
  | .ok (.file _) => true
  | _ => false

/-- Whether a path leads to a folder. -/
def isFolder (fs : FileSystem) (path : String) : Bool :=
  match fs.node? path with
  | .ok (.folder _) => true
  | _ => false

/-- Whether a path leads to a node. -/
def pathExists (fs : FileSystem) (path : String) : Bool :=
  match fs.node? path with
  | .ok _ => true
  | .error _ => false

/-- The bytes of the file that a path leads to. -/
def read (fs : FileSystem) (path : String) : Except FileError Bytes := do
  match ← fs.node? path with
  | .file content => return content
  | .folder _ => throw .isAFolder
  | .link _ => throw .tooManyLinks

/-- The tree with a file of the given bytes where the path leads to. -/
def write (fs : FileSystem) (path : String) (content : Bytes) : Except FileError FileSystem := do
  let place : Location → FileSystem := fun location =>
    { fs with root := Node.put (.file content) location fs.root }
  match ← fs.destination true path with
  | .vacancy folder name => return place (folder ++ [name])
  | .node location =>
    match fs.root.at? location with
    | some (.file _) => return place location
    | _ => throw .isAFolder

/-- The tree with a folder of the last name of a path, whose other names lead to a
folder. A link of that name is not followed. -/
def makeFolder (fs : FileSystem) (path : String) : Except FileError FileSystem := do
  let start ← fs.start path
  match (Path.segments path).reverse.dropWhile (· == "") with
  | [] => throw .alreadyExists
  | name :: before =>
    match ← follow fs.root false maxLinks before.reverse start with
    | .vacancy .. => throw .notFound
    | .node folder =>
      match fs.root.at? folder with
      | some (.folder children) =>
        if name = "." ∨ name = ".." then throw .alreadyExists
        else if maxNameSize < name.utf8ByteSize then throw .tooLong
        else if (children.lookup name).isSome then throw .alreadyExists
        else return { fs with root := Node.put (.folder []) (folder ++ [name]) fs.root }
      | _ => throw .notAFolder

/-- The tree with the folder of a path and all folders in front of it, and how that ends: the
folders that were made before a fault stay. The fuel is the number of names in the path. -/
def makeFolders (fs : FileSystem) (path : String) : FileSystem × Except FileError Unit :=
  go path.length fs path
where
  /-- Makes the folder, or first the folders in front of it when they are missing. -/
  go : Nat → FileSystem → String → FileSystem × Except FileError Unit
    | 0, fs, _ => (fs, .ok ())
    | fuel + 1, fs, path =>
      if path.isEmpty then (fs, .ok ()) else
      match fs.makeFolder path with
      | .ok fs => (fs, .ok ())
      | .error .notFound =>
        match Path.parent? path with
        | none => (fs, .error .notFound)
        | some above =>
          match go fuel fs above with
          | (fs, .error error) => (fs, .error error)
          | (fs, .ok ()) => settle fs path
      | .error error => if fs.isFolder path then (fs, .ok ()) else (fs, .error error)
  /-- Makes one folder unless it is there. -/
  settle (fs : FileSystem) (path : String) : FileSystem × Except FileError Unit :=
    match fs.makeFolder path with
    | .ok fs => (fs, .ok ())
    | .error error => if fs.isFolder path then (fs, .ok ()) else (fs, .error error)

end FileSystem

end JarCensus
