import JarCensus.Listing

/-!
# Dependencies

A dependency is a jar, or a folder that is searched for jars at any depth. The jars of
a folder come in the order of their paths, compared part by part. Faults of ignore files
do not keep a folder from being searched.
-/

namespace JarCensus

/-- Why a dependency cannot be searched. -/
inductive DependencyError where
  /-- The dependency is a file that is no jar. -/
  | notAJar (path : String)
  /-- The dependency is not there. -/
  | missing (path : String)
  deriving DecidableEq, Repr

/-- The message of a dependency error. -/
def DependencyError.message : DependencyError → String
  | .notAJar path => s!"Not a jar or directory: {path}"
  | .missing path => s!"Dependency path does not exist: {path}"

namespace Dependencies

/-- The paths of the jars of a dependency. -/
def jars (fs : FileSystem) (path : String) : Except DependencyError (List String) :=
  if fs.isFile path then
    if Path.isJar path then .ok [path] else .error (.notAJar path)
  else if fs.isFolder path then
    match Walk.ofStart fs path with
    | .error _ => .ok []
    | .ok walk =>
      let paths := (walk.fileVisits.map (·.path)).filter Path.isJar
      .ok (paths.mergeSort Path.partsLE)
  else .error (.missing path)

/-- The entries of the jars that can be listed, and how many there are. -/
def listable (fs : FileSystem) : List String → List Entry × Nat
  | [] => ([], 0)
  | jar :: rest =>
    let (entries, count) := listable fs rest
    match Listing.inJar fs jar false with
    | .ok found => (found ++ entries, count + 1)
    | .error _ => (entries, count)

/-- The entries of all jars of the dependencies that can be listed, and how many such
jars there are. -/
def entries (fs : FileSystem) : List String → Except DependencyError (List Entry × Nat)
  | [] => .ok ([], 0)
  | path :: rest => do
    let found ← jars fs path
    let (first, firstCount) := listable fs found
    let (others, othersCount) ← entries fs rest
    return (first ++ others, firstCount + othersCount)

end Dependencies

end JarCensus
