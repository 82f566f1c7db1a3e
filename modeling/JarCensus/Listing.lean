import JarCensus.FileSystem.Walk
import JarCensus.Zip.Archive

/-!
# Listing class entries

The class entries of a jar are those of the jar itself, in the order of its directory,
followed by those of the jars nested in it, to two levels. An entry that is refused
makes the listing of its jar fail; a nested jar that cannot be listed is left out. The
class entries of a folder are its class files at any depth.
-/

namespace JarCensus

/-- Why the entries of an archive cannot be listed. -/
inductive ListingError where
  /-- The jar cannot be opened. -/
  | cannotOpen (path : String) (cause : FileError)
  /-- The jar cannot be mapped. -/
  | cannotMap (path : String) (cause : FileError)
  /-- The directory of the jar cannot be read. -/
  | badStructure (label : String) (cause : Zip.Fault)
  /-- A member of the jar is refused. -/
  | refused (cause : Zip.Fault)
  /-- A folder in the folder, or the folder itself, cannot be entered. -/
  | cannotEnter (path inner : String) (cause : FileError)
  /-- Ignore files above the folder have faults. -/
  | badIgnoreFiles (path : String) (complaints : List String)
  deriving DecidableEq, Repr

/-- The message of a listing error followed by the messages of its causes. -/
def ListingError.chain : ListingError → List String
  | .cannotOpen path cause => [s!"Failed to open jar: {path}", cause.message]
  | .cannotMap path cause => [s!"Failed to mmap jar: {path}", cause.message]
  | .badStructure label cause => s!"Failed to read zip structure: {label}" :: cause.chain
  | .refused cause => cause.chain
  | .cannotEnter path inner cause =>
    [s!"Failed to walk directory: {path}",
      s!"{inner}: IO error for operation on {inner}: {cause.message}"]
  | .badIgnoreFiles path complaints =>
    [s!"Failed to walk directory: {path}", "\n".intercalate complaints]

namespace Listing

/-- How many levels of nested jars are listed. -/
def maxNesting : Nat := 2

/-- The name after the last slash. -/
def lastName (name : String) : String :=
  String.ofList ((Text.splitAt '/' name.toList).getLastD [])

/-- Whether a name ends in a text. -/
def endsIn (ending name : String) : Bool := ending.toList.isSuffixOf name.toList

/-- Whether an entry of the name may hold a class. Descriptions of modules and packages
hold none. -/
def isClassName (name : String) : Bool :=
  endsIn ".class" name &&
    lastName name != "module-info.class" && lastName name != "package-info.class"

/-- The class entries of the bytes of a jar, in which the given number of levels of
nested jars is listed. All members are opened, also those that are not listed. -/
def ofJar : Nat → String → Bool → Bytes → Except ListingError (List Entry)
  | levels, label, isRoot, bytes => do
    let members ← (Zip.members bytes).mapError (.badStructure label)
    let archive := bytes.toArray
    let items ← (members.mapM (Zip.Item.find archive)).mapError .refused
    let files := items.filter fun item => !Zip.isFolderName item.member.name
    let classes := files.filter fun item => isClassName item.member.name
    let entries := classes.map fun item =>
      ⟨item.member.name, isRoot, some label, item.stream archive⟩
    match levels with
    | 0 => return entries
    | levels + 1 =>
      let jars := files.filter fun item =>
        !isClassName item.member.name && endsIn ".jar" item.member.name
      let inner := jars.flatMap fun item =>
        match (item.stream archive).read with
        | .error _ => []
        | .ok content =>
          match ofJar levels (label ++ "!/" ++ item.member.name) false content with
          | .error _ => []
          | .ok entries => entries
      return entries ++ inner

/-- The class entries of the jar at a path. -/
def inJar (fs : FileSystem) (path : String) (isRoot : Bool) :
    Except ListingError (List Entry) :=
  match fs.read path with
  | .error .isAFolder => .error (.cannotMap path .noSuchDevice)
  | .error cause => .error (.cannotOpen path cause)
  | .ok bytes => ofJar maxNesting path isRoot bytes

/-- The stream of a file. -/
def streamAt (fs : FileSystem) (path : String) : Stream :=
  match fs.read path with
  | .ok bytes => .content bytes
  | .error cause => .unopenable cause.message

/-- The class entries below the folder at a path. -/
def inFolder (fs : FileSystem) (path : String) (isRoot : Bool) :
    Except ListingError (List Entry) := do
  let walk ← (Walk.ofStart fs path).mapError (.cannotEnter path path)
  unless walk.complaints.isEmpty do throw (.badIgnoreFiles path walk.complaints)
  if let some (inner, cause) := walk.obstacle? then throw (.cannotEnter path inner cause)
  let named := walk.fileVisits.map fun visit => ("/".intercalate visit.names, visit.path)
  let classes := named.filter fun (name, _) => isClassName name
  return classes.map fun (name, file) => ⟨name, isRoot, some path, streamAt fs file⟩

/-- The class entries of the folder or the jar at a path. -/
def atPath (fs : FileSystem) (path : String) (isRoot : Bool) :
    Except ListingError (List Entry) :=
  if fs.isFolder path then inFolder fs path isRoot else inJar fs path isRoot

end Listing

end JarCensus
