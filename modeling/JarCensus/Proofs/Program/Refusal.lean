import JarCensus.Proofs.Config.Session
import JarCensus.Proofs.Dependencies
import JarCensus.Proofs.Listing.Refusal
import JarCensus.Program.Basic

/-!
# What a refused member comes to

A member that is refused takes its whole jar with it. A scan of the jar as the main archive ends
with the fault of the first such member; as a dependency or within another jar it is passed over,
and nothing else is lost.
-/

namespace JarCensus.Program

open Listing

variable {fs : FileSystem} {path : String} {bytes : Bytes} {members : List Zip.Member}
  {fault : Zip.Fault}

/-- What comes of a jar whose directory can be read, by the members that are refused. -/
structure RefusalOutcome (fs : FileSystem) (path : String) (bytes : Bytes)
    (members : List Zip.Member) : Prop where
  /-- The jar is listed exactly when all of its members can be opened. -/
  listed : ∀ isRoot, (∃ entries, inJar fs path isRoot = .ok entries) ↔
    ∀ member ∈ members, ∃ item, Zip.Item.find bytes.toArray member = .ok item
  /-- Otherwise none of its entries is, and the fault is that of the first refused member. -/
  refused : ∀ isRoot fault, inJar fs path isRoot = .error (.refused fault) ↔
    FirstRefused bytes.toArray members fault
  /-- A scan of such a jar as the main archive ends with that fault. -/
  fatal : ∀ fault, FirstRefused bytes.toArray members fault →
    ∀ pools config session dependencies, Config.session config pools = .ok session →
      scan fs pools config path dependencies = .error (.listing (.refused fault))
  /-- As a jar of the dependencies it is passed over. -/
  dependency : ∀ fault, FirstRefused bytes.toArray members fault →
    ∀ before after, Dependencies.listable fs (before ++ path :: after) =
      Dependencies.listable fs (before ++ after)
  /-- Within another jar it is left out, and the other members of that jar give what they give
  without it. -/
  nested : ∀ fault, FirstRefused bytes.toArray members fault →
    ∀ outer jar before item after name, OpenJar.ofBytes? outer = some jar →
      jar.items = before ++ item :: after → jar.nestedOf? item = some (name, bytes) →
      ∀ levels label isRoot, ofJar levels label isRoot outer =
        .ok (entriesOfItems levels label isRoot jar (before ++ after))

/-- A path whose bytes can be read does not lead to a folder. -/
theorem isFolder_of_read (hread : fs.read path = .ok bytes) : fs.isFolder path = false := by
  unfold FileSystem.read at hread
  unfold FileSystem.isFolder
  cases hnode : fs.node? path with
  | error cause => rfl
  | ok node =>
    cases node with
    | file content => rfl
    | link target => rfl
    | folder children =>
      rw [hnode] at hread
      cases hread

/-- A scan whose main archive cannot be listed ends with that. -/
theorem scan_of_listing_error {pools : PoolBuilder} {config : Config} {session : Session}
    {error : ListingError} {archive : String} (hsession : config.session pools = .ok session)
    (hlisted : Listing.atPath fs archive true = .error error) (dependencies : List String) :
    scan fs pools config archive dependencies = .error (.listing error) := by
  have hstarted : (config.session pools).mapError Fault.start = .ok session :=
    mapError_eq_ok_iff.mpr hsession
  have hfailed : (Listing.atPath fs archive true).mapError Fault.listing =
      .error (.listing error) :=
    mapError_eq_error_iff.mpr ⟨error, hlisted, rfl⟩
  unfold scan
  rw [hstarted]
  simp only [bind, Except.bind, hfailed]

/-- Jars of the dependencies that cannot be listed are passed over. -/
theorem listable_of_listing_error {error : ListingError}
    (hlisted : Listing.inJar fs path false = .error error) (before after : List String) :
    Dependencies.listable fs (before ++ path :: after) =
      Dependencies.listable fs (before ++ after) := by
  have hnone : Dependencies.entriesOf fs path = [] := by
    rw [Dependencies.entriesOf, hlisted]
    rfl
  have hcount : Dependencies.isListable fs path = false := by
    rw [Dependencies.isListable, hlisted]
    rfl
  simp [Dependencies.listable_eq, hnone, hcount]

/-- What comes of a jar whose directory can be read is settled by its first refused member. -/
theorem refusalOutcome_of_read (hread : fs.read path = .ok bytes)
    (hmembers : Zip.members bytes = .ok members) : RefusalOutcome fs path bytes members where
  listed := by
    intro isRoot
    rw [inJar_of_read hread]
    exact exists_ofJar_iff hmembers
  refused := by
    intro isRoot fault
    rw [inJar_of_read hread]
    exact ofJar_eq_refused_iff hmembers
  fatal := by
    intro fault hrefused pools config session dependencies hsession
    have hlisted : Listing.atPath fs path true = .error (.refused fault) := by
      rw [Listing.atPath, isFolder_of_read hread, if_neg Bool.false_ne_true,
        inJar_of_read hread]
      exact (ofJar_eq_refused_iff hmembers).mpr hrefused
    exact scan_of_listing_error hsession hlisted dependencies
  dependency := by
    intro fault hrefused before after
    have hlisted : Listing.inJar fs path false = .error (.refused fault) := by
      rw [inJar_of_read hread]
      exact (ofJar_eq_refused_iff hmembers).mpr hrefused
    exact listable_of_listing_error hlisted before after
  nested := by
    intro fault hrefused outer jar before item after name hjar hitems hnested levels label isRoot
    exact ofJar_of_broken_nested hjar hitems hnested (ofBytes?_eq_none hmembers hrefused)

/-- A jar with an empty class file and an empty text file, the second of which is marked as
encrypted in the directory. -/
def lockedJar : Bytes :=
  (Zip.Packing.archive [.stored "A.class" [], .stored "b.txt" []]).set 133 1

/-- The same jar without the text file. -/
def openJar : Bytes := Zip.Packing.archive [.stored "A.class" []]

/-- The members of the first jar. -/
def lockedMembers : List Zip.Member :=
  [⟨"A.class", false, 0, 0, 0, 0, 0⟩, ⟨"b.txt", true, 0, 0, 0, 0, 37⟩]

/-- The files with the two jars. -/
def lockedTree : FileSystem :=
  ⟨.folder [("app.jar", .file lockedJar), ("open.jar", .file openJar)], []⟩

/-- The first jar is read at its name. -/
theorem read_lockedTree : lockedTree.read "app.jar" = .ok lockedJar :=
  FileSystem.read_of_isName (by constructor <;> decide) rfl

/-- The directory of the first jar can be read. -/
theorem members_lockedJar : Zip.members lockedJar = .ok lockedMembers := by
  decide +kernel

/-- The text file is refused, and the class file is not. -/
theorem firstRefused_lockedJar :
    FirstRefused lockedJar.toArray lockedMembers .passwordRequired := by
  have hopened : Zip.Item.find lockedJar.toArray ⟨"A.class", false, 0, 0, 0, 0, 0⟩ =
      .ok ⟨⟨"A.class", false, 0, 0, 0, 0, 0⟩, .stored, 37⟩ := by
    decide +kernel
  exact ⟨[_], _, [], rfl, by simpa using ⟨_, hopened⟩, by decide +kernel⟩

/-- The class file that is listed of the jar without the text file is not listed of the jar with
it, although only the text file is refused. -/
theorem not_local_lockedJar :
    Zip.members lockedJar = .ok lockedMembers ∧
    FirstRefused lockedJar.toArray lockedMembers .passwordRequired ∧
    inJar lockedTree "app.jar" true = .error (.refused .passwordRequired) ∧
    inJar lockedTree "open.jar" true = .ok [⟨"A.class", true, some "open.jar", .content []⟩] := by
  have hopen : lockedTree.read "open.jar" = .ok openJar :=
    FileSystem.read_of_isName (by constructor <;> decide) rfl
  refine ⟨members_lockedJar, firstRefused_lockedJar, ?_, ?_⟩
  · rw [inJar_of_read read_lockedTree]
    exact (ofJar_eq_refused_iff members_lockedJar).mpr firstRefused_lockedJar
  · rw [inJar_of_read hopen]
    decide +kernel

/-- A scan of the jar ends with the fault of the text file, and as a dependency the jar is passed
over. -/
theorem refusalOutcome_lockedJar :
    lockedTree.read "app.jar" = .ok lockedJar ∧ Zip.members lockedJar = .ok lockedMembers ∧
    scan lockedTree .unlimited .standard "app.jar" [] =
      .error (.listing (.refused .passwordRequired)) ∧
    Dependencies.listable lockedTree ["app.jar"] = ([], 0) := by
  have houtcome : RefusalOutcome lockedTree "app.jar" lockedJar lockedMembers :=
    refusalOutcome_of_read read_lockedTree members_lockedJar
  have hsession : Config.standard.session .unlimited =
      .ok (.start .disabled Config.standard.criteria) :=
    Config.session_of_decryption_eq_none rfl (Config.staffed_unlimited _)
  exact ⟨read_lockedTree, members_lockedJar,
    houtcome.fatal _ firstRefused_lockedJar _ _ _ _ hsession,
    houtcome.dependency _ firstRefused_lockedJar [] []⟩

end JarCensus.Program
