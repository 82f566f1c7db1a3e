import JarCensus.Category
import JarCensus.Entry

/-!
# The census

Recorded classes lie in four partitions, by category and by whether they belong to
the main archive. A partition holds one descriptor for each class name, the one that
was recorded last, in increasing order of the names. Classes of neither category are
not kept.
-/

namespace JarCensus

/-- A categorized class and the stream it came from. -/
structure Descriptor where
  /-- The class name. -/
  name : String
  /-- The category of the class. -/
  category : Category
  /-- The stream of the stored bytes. -/
  stream : Stream
  /-- Whether the stored bytes have to pass the transform. -/
  decrypted : Bool
  deriving DecidableEq, Repr

/-- The diagnostic form of a descriptor. -/
def Descriptor.shown (descriptor : Descriptor) : String :=
  "ClassDescriptor \x7b name: " ++ Text.Quoted.text descriptor.name ++
    ", categorization: " ++ descriptor.category.title ++ ", decrypted: " ++
    toString descriptor.decrypted ++ ", .. \x7d"

/-- Descriptors in increasing order of their names, which are therefore distinct. -/
structure Partition where
  /-- The descriptors. -/
  entries : List Descriptor
  /-- The names increase. -/
  increasing : entries.Pairwise (·.name < ·.name)
  deriving DecidableEq

namespace Partition

/-- The partition without descriptors. -/
def empty : Partition := ⟨[], .nil⟩

/-- The sorted list with a descriptor in the place of its name. -/
def place (descriptor : Descriptor) : List Descriptor → List Descriptor
  | [] => [descriptor]
  | first :: rest =>
    if descriptor.name < first.name then descriptor :: first :: rest
    else if descriptor.name = first.name then descriptor :: rest
    else first :: place descriptor rest

/-- Placing a descriptor adds it and keeps only descriptors that were there. -/
theorem mem_place {descriptor entry : Descriptor} {entries : List Descriptor}
    (h : entry ∈ place descriptor entries) : entry = descriptor ∨ entry ∈ entries := by
  induction entries with
  | nil => simpa [place] using h
  | cons first rest ih =>
    unfold place at h
    split at h
    · simpa using h
    · split at h
      · rcases List.mem_cons.mp h with rfl | hrest
        · exact .inl rfl
        · exact .inr (List.mem_cons_of_mem _ hrest)
      · rcases List.mem_cons.mp h with rfl | hrest
        · exact .inr List.mem_cons_self
        · rcases ih hrest with rfl | hmem
          · exact .inl rfl
          · exact .inr (List.mem_cons_of_mem _ hmem)

/-- Placing a descriptor keeps the names in increasing order. -/
theorem place_increasing (descriptor : Descriptor) {entries : List Descriptor}
    (h : entries.Pairwise (·.name < ·.name)) :
    (place descriptor entries).Pairwise (·.name < ·.name) := by
  induction entries with
  | nil => simp [place]
  | cons first rest ih =>
    obtain ⟨hfirst, hrest⟩ := List.pairwise_cons.mp h
    unfold place
    split
    · rename_i hless
      refine List.pairwise_cons.mpr ⟨?_, h⟩
      intro entry hentry
      rcases List.mem_cons.mp hentry with rfl | hmem
      · exact hless
      · exact String.lt_trans hless (hfirst entry hmem)
    · rename_i hnot
      split
      · rename_i hsame
        refine List.pairwise_cons.mpr ⟨?_, hrest⟩
        intro entry hentry
        rw [hsame]
        exact hfirst entry hentry
      · rename_i hother
        refine List.pairwise_cons.mpr ⟨?_, ih hrest⟩
        intro entry hentry
        rcases mem_place hentry with rfl | hmem
        · exact Std.lt_of_le_of_ne (String.not_lt.mp hnot) fun heq => hother heq.symm
        · exact hfirst entry hmem

/-- The partition with a descriptor in place of any earlier one of its name. -/
def insert (partition : Partition) (descriptor : Descriptor) : Partition :=
  ⟨place descriptor partition.entries, place_increasing descriptor partition.increasing⟩

/-- The descriptor of a name. -/
def get? (partition : Partition) (name : String) : Option Descriptor :=
  partition.entries.find? (·.name == name)

/-- The number of names. -/
def size (partition : Partition) : Nat := partition.entries.length

/-- The names, in increasing order. -/
def names (partition : Partition) : List String := partition.entries.map (·.name)

end Partition

/-- The four partitions. -/
structure Census where
  /-- The models of the main archive. -/
  rootModels : Partition
  /-- The models from elsewhere. -/
  otherModels : Partition
  /-- The converters of the main archive. -/
  rootConverters : Partition
  /-- The converters from elsewhere. -/
  otherConverters : Partition
  deriving DecidableEq

/-- The number of names in each partition. -/
structure Summary where
  /-- Models of the main archive. -/
  rootModels : Nat
  /-- Models from elsewhere. -/
  nonRootModels : Nat
  /-- Converters of the main archive. -/
  rootConverters : Nat
  /-- Converters from elsewhere. -/
  nonRootConverters : Nat
  deriving DecidableEq, Repr

namespace Census

/-- The census before anything is recorded. -/
def empty : Census := ⟨.empty, .empty, .empty, .empty⟩

/-- The partition of a category and an origin. -/
def partition? (census : Census) (category : Category) (isRoot : Bool) :
    Option Partition :=
  match category, isRoot with
  | .model, true => some census.rootModels
  | .model, false => some census.otherModels
  | .converter, true => some census.rootConverters
  | .converter, false => some census.otherConverters
  | .other, _ => none

/-- Records a descriptor in the partition of its category and origin. -/
def record (census : Census) (descriptor : Descriptor) (isRoot : Bool) : Census :=
  match descriptor.category, isRoot with
  | .model, true =>
    { census with rootModels := census.rootModels.insert descriptor }
  | .model, false =>
    { census with otherModels := census.otherModels.insert descriptor }
  | .converter, true =>
    { census with rootConverters := census.rootConverters.insert descriptor }
  | .converter, false =>
    { census with otherConverters := census.otherConverters.insert descriptor }
  | .other, _ => census

/-- The descriptor recorded last under a category, an origin and a name. -/
def get? (census : Census) (category : Category) (isRoot : Bool) (name : String) :
    Option Descriptor := do
  (← census.partition? category isRoot).get? name

/-- The descriptors of a category and an origin, in increasing order of their names. -/
def descriptors (census : Census) (category : Category) (isRoot : Bool) :
    List Descriptor :=
  ((census.partition? category isRoot).map (·.entries)).getD []

/-- The class names of a category and an origin, in increasing order. -/
def names (census : Census) (category : Category) (isRoot : Bool) : List String :=
  (census.descriptors category isRoot).map (·.name)

/-- The number of names in all partitions. -/
def size (census : Census) : Nat :=
  census.rootModels.size + census.otherModels.size +
    census.rootConverters.size + census.otherConverters.size

/-- Whether nothing is recorded. -/
def isEmpty (census : Census) : Bool := census.size == 0

/-- The number of names in each partition. -/
def summary (census : Census) : Summary :=
  ⟨census.rootModels.size, census.otherModels.size,
    census.rootConverters.size, census.otherConverters.size⟩

end Census

end JarCensus
