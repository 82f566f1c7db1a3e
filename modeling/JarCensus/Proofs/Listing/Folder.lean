import JarCensus.Listing
import JarCensus.Proofs.Success

/-!
# What is listed of a folder

A folder is walked before anything of it is listed: faults of the ignore files above it, and then
folders that cannot be entered, keep all of its class files from being listed.
-/

namespace JarCensus.Listing

variable {fs : FileSystem} {path : String} {isRoot : Bool} {entries : List Entry} {walk : Walk}

/-- The name of an entry that a walk came to: the names on the way, with slashes between. -/
def nameOf (visit : Walk.Visit) : String := "/".intercalate visit.names

/-- The entry of a file that a walk came to. -/
def entryOfVisit (fs : FileSystem) (path : String) (isRoot : Bool) (visit : Walk.Visit) : Entry :=
  ⟨nameOf visit, isRoot, some path, streamAt fs visit.path⟩

/-- The entries of the class files among the visits of a walk. -/
def entriesOfVisits (fs : FileSystem) (path : String) (isRoot : Bool)
    (visits : List Walk.Visit) : List Entry :=
  (visits.filter fun visit => isClassName (nameOf visit)).map (entryOfVisit fs path isRoot)

section Walked

variable (hwalk : Walk.ofStart fs path = .ok walk)
include hwalk

/-- Faults of the ignore files above a folder keep it from being listed. -/
theorem inFolder_of_complaints (hfaults : walk.complaints ≠ []) :
    inFolder fs path isRoot = .error (.badIgnoreFiles path walk.complaints) := by
  have hstart : (Walk.ofStart fs path).mapError (ListingError.cannotEnter path path) = .ok walk :=
    mapError_eq_ok_iff.mpr hwalk
  obtain ⟨complaint, more, hcomplaints⟩ := List.exists_cons_of_ne_nil hfaults
  unfold inFolder
  rw [hstart]
  simp only [bind, Except.bind, hcomplaints]
  rfl

/-- So do folders in it that cannot be entered. -/
theorem inFolder_of_obstacle {inner : String} {cause : FileError}
    (hcomplaints : walk.complaints = []) (hobstacle : walk.obstacle? = some (inner, cause)) :
    inFolder fs path isRoot = .error (.cannotEnter path inner cause) := by
  have hstart : (Walk.ofStart fs path).mapError (ListingError.cannotEnter path path) = .ok walk :=
    mapError_eq_ok_iff.mpr hwalk
  unfold inFolder
  rw [hstart]
  simp only [bind, Except.bind, hcomplaints, hobstacle]
  rfl

/-- Otherwise the class files among the visits of the walk are listed. -/
theorem inFolder_of_entered (hcomplaints : walk.complaints = [])
    (hobstacle : walk.obstacle? = none) :
    inFolder fs path isRoot = .ok (entriesOfVisits fs path isRoot walk.fileVisits) := by
  have hstart : (Walk.ofStart fs path).mapError (ListingError.cannotEnter path path) = .ok walk :=
    mapError_eq_ok_iff.mpr hwalk
  have hentries : ((walk.fileVisits.map fun visit => (nameOf visit, visit.path)).filter
      fun found => isClassName found.1).map (fun found =>
        (⟨found.1, isRoot, some path, streamAt fs found.2⟩ : Entry)) =
      entriesOfVisits fs path isRoot walk.fileVisits := by
    simp [List.filter_map, Function.comp_def, entriesOfVisits, entryOfVisit]
  rw [← hentries]
  unfold inFolder
  rw [hstart]
  simp only [bind, Except.bind, hcomplaints, hobstacle]
  rfl

end Walked

/-- What is listed of a folder are the class files among the visits of its walk. -/
theorem eq_of_inFolder (hlisted : inFolder fs path isRoot = .ok entries) :
    ∃ walk, Walk.ofStart fs path = .ok walk ∧
      entries = entriesOfVisits fs path isRoot walk.fileVisits := by
  cases hwalk : Walk.ofStart fs path with
  | error cause =>
    have hrefused : inFolder fs path isRoot = .error (.cannotEnter path path cause) := by
      unfold inFolder
      rw [hwalk]
      rfl
    cases hrefused.symm.trans hlisted
  | ok walk =>
    by_cases hcomplaints : walk.complaints = []
    · cases hobstacle : walk.obstacle? with
      | some obstacle => cases (inFolder_of_obstacle hwalk hcomplaints hobstacle).symm.trans hlisted
      | none =>
        have hentries := (inFolder_of_entered hwalk hcomplaints hobstacle).symm.trans hlisted
        exact ⟨walk, rfl, (Except.ok.inj hentries).symm⟩
    · cases (inFolder_of_complaints hwalk hcomplaints).symm.trans hlisted

end JarCensus.Listing
