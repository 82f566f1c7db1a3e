import JarCensus.Session.Basic

/-!
# Reports

A scan report says what was scanned, what became of the entries, which classes have a
category, and which entries failed. A class report says what one class is.
-/

namespace JarCensus

/-- The class names of one category. -/
structure NameLists where
  /-- The names of the main archive. -/
  root : List String
  /-- The names from elsewhere. -/
  nonRoot : List String
  deriving DecidableEq, Repr

/-- What is known after a scan. -/
structure CensusReport where
  /-- The path of the main archive. -/
  archive : String
  /-- The number of dependency jars that were listed. -/
  dependencyJars : Nat
  /-- Whether decryption is configured. -/
  decryptionEnabled : Bool
  /-- What became of the entries. -/
  stats : Stats
  /-- The number of classes of each kind. -/
  summary : Summary
  /-- The models. -/
  models : NameLists
  /-- The converters. -/
  converters : NameLists
  /-- The failures, ordered by path. -/
  failures : List Failure
  deriving DecidableEq, Repr

/-- Whether the path of one failure comes before or at that of another. -/
def Failure.pathLE (x y : Failure) : Bool := decide (x.path ≤ y.path)

namespace CensusReport

/-- The names that a census holds under a category. -/
def namesOf (census : Census) (category : Category) : NameLists :=
  ⟨census.names category true, census.names category false⟩

/-- The report on the state of a session. Failures of one path stay in their order of
occurrence. -/
def ofSession (archive : String) (dependencyJars : Nat) (decryptionEnabled : Bool)
    (session : Session) : CensusReport where
  archive := archive
  dependencyJars := dependencyJars
  decryptionEnabled := decryptionEnabled
  stats := session.stats
  summary := session.census.summary
  models := namesOf session.census .model
  converters := namesOf session.census .converter
  failures := session.failures.mergeSort Failure.pathLE

end CensusReport

/-- What is known of one class. -/
structure ClassReport where
  /-- The path that the class goes under. -/
  path : String
  /-- The class name. -/
  name : String
  /-- The names of its annotations. -/
  annotations : List String
  /-- Its category. -/
  category : Category
  /-- Whether its path is protected. -/
  isProtected : Bool
  /-- Whether it was decrypted. -/
  decrypted : Bool
  deriving DecidableEq, Repr

/-- The report on a finding under a path. -/
def ClassReport.ofInspection (path : String) (isProtected : Bool) (finding : Finding) :
    ClassReport :=
  ⟨path, finding.summary.name, finding.summary.annotations, finding.category,
    isProtected, finding.decrypted⟩

end JarCensus
