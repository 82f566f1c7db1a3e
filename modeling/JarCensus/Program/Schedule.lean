import JarCensus.Program.Basic
import JarCensus.Session.Schedule

/-!
# Scans of archives by several workers

A scan lists its entries before any worker starts, and no worker can cancel it. What it
comes to may depend on the interleaving of the workers only.
-/

namespace JarCensus.Program

/-- What the workers of a scan start from. -/
structure Preparation where
  /-- The session that they share. -/
  session : Session
  /-- The entries of the archive and of the dependency jars. -/
  entries : List Entry
  /-- The number of dependency jars that were listed. -/
  dependencyJars : Nat

/-- Starts the session of a scan and lists its entries. -/
def prepare (fs : FileSystem) (pools : PoolBuilder) (config : Config) (archive : String)
    (dependencies : List String) : Except Fault Preparation := do
  let session ← (config.session pools).mapError .start
  let own ← (Listing.atPath fs archive true).mapError .listing
  let (others, count) ← (Dependencies.entries fs dependencies).mapError .dependency
  return ⟨session, own ++ others, count⟩

/-- The report of a prepared scan whose workers leave the given session behind. -/
def Preparation.report (start : Preparation) (config : Config) (archive : String)
    (final : Session) : CensusReport :=
  .ofSession archive start.dependencyJars config.decryption.isSome final

/-- That a scan comes to a result when its workers make the given moves, none of which is a
cancel, and add up their counts over the given tree. -/
inductive ScannedAs (fs : FileSystem) (pools : PoolBuilder) (config : Config)
    (archive : String) (dependencies : List String) (moves : List Move) (tree : MergeTree) :
    Except Fault CensusReport → Prop where
  /-- A scan that cannot start ends before any worker does. -/
  | refused {fault : Fault}
    (hprepare : prepare fs pools config archive dependencies = .error fault) :
    ScannedAs fs pools config archive dependencies moves tree (.error fault)
  /-- A scan that starts ends with the report on what its workers leave behind. -/
  | scanned {start : Preparation} {final : Session}
    (hprepare : prepare fs pools config archive dependencies = .ok start)
    (hmoves : .cancel ∉ moves)
    (hscan : start.session.ScannedBy start.entries moves tree final) :
    ScannedAs fs pools config archive dependencies moves tree
      (.ok (start.report config archive final))

end JarCensus.Program
