import JarCensus.CommandLine.Usage
import JarCensus.Program.Basic

/-!
# The program

The files that a run follows are copied from the disk into a file tree. The run itself
works on the copy, and the folders and the file that it wrote are copied back.
-/

namespace JarCensus.Disk

/-- A location of the disk. -/
def entry (location : Location) : IO.FS.DirEntry :=
  ⟨"/" ++ "/".intercalate location.dropLast, location.getLastD ""⟩

/-- What is at a location, if anything is. -/
def kind? (location : Location) : IO (Option IO.FS.FileType) := do
  try return some (← (entry location).path.symlinkMetadata).type
  catch _ => return none

/-- The names in a folder, or none if it cannot be read. -/
def names (location : Location) : IO (List String) := do
  try return (← (entry location).path.readDir).toList.map (·.fileName)
  catch _ => return []

/-- The file at a location or where a link at it leads to, if it can be read. -/
def file? (location : Location) : IO (Option Node) := do
  try return some (.file (← IO.FS.readBinFile (entry location).path).toList)
  catch _ => return none

/-- The tree at a location. Links to files become files, and other links are left out. -/
partial def tree? (location : Location) : IO (Option Node) := do
  match ← kind? location with
  | some .dir =>
    let children ← (← names location).mapM fun name => do
      return (name, ← tree? (location ++ [name]))
    return some (.folder (children.filterMap fun (name, child) => child.map ((name, ·))))
  | _ => file? location

/-- What two copies of a folder have together. -/
partial def merge : Node → Node → Node
  | .folder old, .folder new =>
    .folder (new.foldl (fun children (name, child) =>
      let child := ((children.lookup name).map (merge · child)).getD child
      Node.setChild name child children) old)
  | old, _ => old

/-- The tree with a node at a location, if there is one. -/
def put (tree : Node) (location : Location) : Option Node → Node
  | none => tree
  | some node => merge tree (Node.put node location (.folder []))

/-- The tree with everything that a path leads through from a location, and with what
hides files on the way. -/
partial def add (tree : Node) (here : Location) : List String → IO Node
  | [] => do return put tree here (← tree? here)
  | segment :: rest => do
    let ignoreFile := here ++ [".ignore"]
    let tree := put tree ignoreFile (← file? ignoreFile)
    let place := here ++ [segment]
    if Path.isIdle segment then add tree here rest
    else if segment == ".." then add tree here.dropLast rest
    else
      match ← kind? place with
      | none => return tree
      | some .symlink =>
        try
          let target := (← IO.FS.realPath (entry place).path).toString
          add (put tree place (some (.link target))) [] (Path.segments target ++ rest)
        catch _ => return tree
      | some .dir => add (put tree place (some (.folder []))) place rest
      | some _ => return put tree place (← file? place)

/-- The tree of the disk as far as paths lead through it. -/
def fileSystem (paths : List String) : IO FileSystem := do
  let working := Path.segments (← IO.currentDir).toString
  let mut root := Node.folder []
  for path in paths do
    let start := if Path.isAbsolute path then [] else working
    root ← add root [] (start ++ Path.segments path)
  return ⟨root, working.filter (!Path.isIdle ·)⟩

/-- Makes the last folder on the disk that a file tree has in front of a path. -/
partial def makeFolders (fs : FileSystem) (path : String) : IO Unit := do
  if let some folder := Path.parent? path then
    if !folder.isEmpty then
      if fs.isFolder folder then IO.FS.createDirAll folder else makeFolders fs folder

/-- Copies the file at a path to the disk. -/
def save (fs : FileSystem) (path : String) : IO Unit := do
  let .ok content := fs.read path | return
  IO.FS.writeBinFile path content.toByteArray

end JarCensus.Disk

open JarCensus in
/-- Runs a command line. -/
def main (arguments : List String) : IO UInt32 := do
  match CommandLine.read arguments with
  | .error error =>
    if error.exitCode = 0 then IO.print error.text else IO.eprint error.text
    return error.exitCode.toUInt32
  | .ok line =>
    let pairs ← Program.variableNames.mapM fun name => do return (name, ← IO.getEnv name)
    let environment : Program.Environment := fun name => (pairs.lookup name).join
    let fs ← Disk.fileSystem (Program.paths environment line)
    let started ← IO.monoMsNow
    let product ← IO.lazyPure fun _ => Program.produce fs .unlimited environment line
    let ending := Program.finish fs ((← IO.monoMsNow) - started) product
    if let some path := line.command.output? then
      Disk.makeFolders ending.files path
      if ending.exitCode = 0 then Disk.save ending.files path
    IO.print ending.printed
    IO.eprint ending.complaint
    return ending.exitCode.toUInt32
