import Mathlib.Data.List.Forall2
import JarCensus.Listing
import JarCensus.Zip.Content

/-!
# Places in nested jars

A place in a jar is a position in the directory of the jar itself, or of a jar that is
nested in it at any depth. Positions count all members, so members of one name have
different places. What stands at a place is said twice: by what the jars hold, and as
something to be looked up.
-/

namespace JarCensus

/-- A jar whose directory can be read and whose members can all be opened. -/
structure OpenJar where
  /-- The bytes of the jar. -/
  archive : Array UInt8
  /-- The members, in the order of the directory. -/
  items : List Zip.Item

namespace OpenJar

/-- The jar of some bytes, if they are the bytes of one. -/
def ofBytes? (bytes : Bytes) : Option OpenJar := do
  let members ← (Zip.members bytes).toOption
  let items ← (members.mapM (Zip.Item.find bytes.toArray)).toOption
  return ⟨bytes.toArray, items⟩

/-- The name and the stream of a member that is a file and may hold a class. -/
def classOf? (jar : OpenJar) (item : Zip.Item) : Option (String × Stream) :=
  let name := item.member.name
  if !Zip.isFolderName name && Listing.isClassName name then some (name, item.stream jar.archive)
  else none

/-- The name and the bytes of a member that is a file with the name of a jar and can be
read. -/
def nestedOf? (jar : OpenJar) (item : Zip.Item) : Option (String × Bytes) :=
  let name := item.member.name
  if !Zip.isFolderName name && Listing.endsIn ".jar" name then
    (item.stream jar.archive).read.toOption.map (name, ·)
  else none

/-- The name and the stream of the class at a position. -/
def classAt? (jar : OpenJar) (index : Nat) : Option (String × Stream) :=
  jar.items[index]?.bind jar.classOf?

/-- The name and the bytes of the nested jar at a position. -/
def nestedAt? (jar : OpenJar) (index : Nat) : Option (String × Bytes) :=
  jar.items[index]?.bind jar.nestedOf?

end OpenJar

namespace Listing

/-- The jar that is reached through the nested jars at the given positions, and the names
of these. -/
def jarAt? : List Nat → Bytes → Option (List String × OpenJar)
  | [], bytes => do return ([], ← OpenJar.ofBytes? bytes)
  | index :: rest, bytes => do
    let (name, content) ← (← OpenJar.ofBytes? bytes).nestedAt? index
    let (names, jar) ← jarAt? rest content
    return (name :: names, jar)

/-- The name under which a jar contains its entries: the path of the outer jar and the
names of the jars on the way down. -/
def containerName (path : String) (names : List String) : String :=
  names.foldl (fun outer name => outer ++ "!/" ++ name) path

/-- A place in a jar. -/
structure Place where
  /-- The positions of the nested jars on the way down. -/
  jars : List Nat
  /-- The position in the directory of the last of them. -/
  index : Nat
  deriving DecidableEq, Repr

/-- That one place comes before another: within a jar in the order of its directory, and
before the places in the jars that are nested in it, which come in the order of these. -/
def Place.Before (x y : Place) : Prop :=
  x.jars < y.jars ∨ x.jars = y.jars ∧ x.index < y.index

/-- The class entry at a place of the jar at a path, if there is one. Entries of nested
jars do not belong to the main archive itself. -/
def entryAt? (path : String) (isRoot : Bool) (bytes : Bytes) (place : Place) : Option Entry := do
  let (names, jar) ← jarAt? place.jars bytes
  let (name, stream) ← jar.classAt? place.index
  return ⟨name, isRoot && place.jars.isEmpty, some (containerName path names), stream⟩

/-- That a text is what stands behind the last slash of a name. -/
def IsLastPart (last name : String) : Prop :=
  '/' ∉ last.toList ∧ (name = last ∨ ∃ front, name = front ++ "/" ++ last)

/-- That a name is that of a class file, and not of the description of a module or a
package. -/
structure NamesClass (name : String) : Prop where
  /-- The name ends like that of a class file. -/
  ending : ∃ front, name = front ++ ".class"
  /-- It is not that of the description of a module. -/
  noModule : ¬ IsLastPart "module-info.class" name
  /-- It is not that of the description of a package. -/
  noPackage : ¬ IsLastPart "package-info.class" name

/-- That a name is that of a jar. -/
def NamesJar (name : String) : Prop := ∃ front, name = front ++ ".jar"

/-- That the way down through nested jars, at the given positions and of the given names,
leads from the bytes of a jar to other bytes. -/
inductive Reaches : Bytes → List Nat → List String → Bytes → Prop
  /-- The way is over. -/
  | here {bytes : Bytes} : Reaches bytes [] [] bytes
  /-- The way leads on from the content of a member that has the name of a jar. -/
  | down {bytes content inner : Bytes} {members : List Zip.Member} {member : Zip.Member}
    {index : Nat} {jars : List Nat} {names : List String} (hjar : Zip.IsArchive bytes members)
    (hmember : members[index]? = some member) (hname : NamesJar member.name)
    (hcontent : member.Gives bytes (.content content)) (hrest : Reaches content jars names inner) :
    Reaches bytes (index :: jars) (member.name :: names) inner

/-- That an entry is the class entry at a place of the jar at a path: it has the name of the
member there, gives what that member holds, and belongs to the main archive only outside of
nested jars. -/
inductive EntryAt (path : String) (isRoot : Bool) (bytes : Bytes) : Place → Entry → Prop
  /-- The entry of a member with the name of a class file. -/
  | intro {jars : List Nat} {names : List String} {inner : Bytes} {members : List Zip.Member}
    {member : Zip.Member} {index : Nat} {stream : Stream}
    (hreaches : Reaches bytes jars names inner) (hjar : Zip.IsArchive inner members)
    (hmember : members[index]? = some member) (hname : NamesClass member.name)
    (hstream : member.Gives inner stream) :
    EntryAt path isRoot bytes ⟨jars, index⟩
      ⟨member.name, isRoot && jars.isEmpty, some (containerName path names), stream⟩

/-- That entries are the class entries of a jar and of the jars nested in it to the given
level, each at its place. -/
structure Lists (levels : Nat) (path : String) (isRoot : Bool) (bytes : Bytes)
    (places : List Place) (entries : List Entry) : Prop where
  /-- Each entry is the class entry at its place. -/
  entries : List.Forall₂ (EntryAt path isRoot bytes) places entries
  /-- The places increase, so none comes twice. -/
  ordered : places.Pairwise Place.Before
  /-- Every place with a class entry is there, down to the given level and no further. -/
  complete : ∀ place, place ∈ places ↔
    place.jars.length ≤ levels ∧ ∃ entry, EntryAt path isRoot bytes place entry
  /-- There is nothing below a nested jar that cannot be read or opened. -/
  pruned : ∀ jars, (∀ names inner members,
      Reaches bytes jars names inner → ¬ Zip.IsArchive inner members) →
    ∀ place ∈ places, ¬ jars <+: place.jars

end Listing

end JarCensus
