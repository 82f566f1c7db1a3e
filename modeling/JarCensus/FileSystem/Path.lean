import JarCensus.Text.Split

/-!
# Paths as text

A path is a text of names between slashes. Empty names and dots, except a dot in
front, say nothing and do not count as parts of the path.
-/

namespace JarCensus.Path

/-- The texts between the slashes of a path. -/
def segments (path : String) : List String :=
  (Text.splitAt '/' path.toList).map String.ofList

/-- Whether the path starts at the root of the file tree. -/
def isAbsolute (path : String) : Bool := path.toList.head? == some '/'

/-- Whether a segment says nothing. -/
def isIdle (segment : String) : Bool := segment == "" || segment == "."

/-- The segments that count, of which the first may be a dot. -/
def parts (path : String) : List String :=
  match segments path with
  | [] => []
  | first :: rest =>
    let kept := rest.filter (!isIdle ·)
    if first == "" then kept else first :: kept

/-- The path of a name inside a folder. -/
def join (folder name : String) : String :=
  match folder.toList.getLast? with
  | none => name
  | some '/' => folder ++ name
  | some _ => folder ++ "/" ++ name

/-- The path of names from the root on. -/
def ofNames (names : List String) : String := "/" ++ "/".intercalate names

/-- The path before the last part, when there is a last part. -/
def parent? (path : String) : Option String :=
  match (segments path).reverse with
  | [] => none
  | last :: before =>
    match dropIdle (last :: before) with
    | [] => none
    | [only] => if only == "" then none else some ""
    | _ :: front =>
      match dropIdle front with
      | [""] => some (if isAbsolute path then "/" else "")
      | kept => some ("/".intercalate kept.reverse)
where
  /-- The reversed segments without the idle ones at the end of the path, the first
  segment of the path excepted. -/
  dropIdle : List String → List String
    | [] => []
    | [first] => [first]
    | segment :: rest => if isIdle segment then dropIdle rest else segment :: rest

/-- Whether a name has something in front of the extension `.jar`. -/
def isJarName (name : String) : Bool :=
  ".jar".toList.isSuffixOf name.toList && 4 < name.length

/-- Whether the last part of a path is the name of a jar. -/
def isJar (path : String) : Bool :=
  match (parts path).getLast? with
  | some name => name != ".." && isJarName name
  | none => false

/-- Whether the parts of one path come before or at those of another, part by part. -/
def partsLE (x y : String) : Bool := !(decide (parts y < parts x))

end JarCensus.Path
