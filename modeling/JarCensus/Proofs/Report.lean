import Mathlib.Data.List.Sort
import JarCensus.Proofs.Census
import JarCensus.Report.Basic

/-!
# Reports on sessions that differ in the order of their failures

A report orders failures by path and keeps those of one path in their order of
occurrence. Sessions with the same classes and the same failures in another order
therefore have reports that differ at most in the order of failures that share a path.
-/

namespace JarCensus

namespace Failure

variable {first second : List Failure}

/-- The order by path is transitive. -/
theorem pathLE_trans (x y z : Failure) (hxy : pathLE x y = true) (hyz : pathLE y z = true) :
    pathLE x z = true := by
  simp only [pathLE, decide_eq_true_eq] at hxy hyz ⊢
  exact String.le_trans hxy hyz

/-- Any two failures are in order by path one way or the other. -/
theorem pathLE_total (x y : Failure) : (pathLE x y || pathLE y x) = true := by
  simpa [pathLE] using String.le_total x.path y.path

/-- Failures come to stand in the order of their paths. -/
theorem pairwise_mergeSort (failures : List Failure) :
    (failures.mergeSort pathLE).Pairwise (·.path ≤ ·.path) := by
  simpa [pathLE] using List.pairwise_mergeSort pathLE_trans pathLE_total failures

/-- Failures of one path keep their order. -/
theorem filter_mergeSort (failures : List Failure) (path : String) :
    (failures.mergeSort pathLE).filter (·.path = path) = failures.filter (·.path = path) := by
  have hties : (failures.filter (·.path = path)).Pairwise fun x y => pathLE x y = true := by
    refine List.pairwise_of_forall_mem_list fun x hx y hy => ?_
    have hpaths := (List.mem_filter.mp hx).2
    have hpaths' := (List.mem_filter.mp hy).2
    simp only [decide_eq_true_eq] at hpaths hpaths'
    simp [pathLE, hpaths, hpaths']
  have hkept : (failures.filter (·.path = path)).Sublist (failures.mergeSort pathLE) :=
    List.sublist_mergeSort pathLE_trans pathLE_total hties List.filter_sublist
  have hlength := ((List.mergeSort_perm failures pathLE).filter (·.path = path)).length_eq
  have hfiltered := hkept.filter (·.path = path)
  rw [List.filter_filter] at hfiltered
  simp only [Bool.and_self] at hfiltered
  exact (hfiltered.eq_of_length hlength.symm).symm

/-- That no two different failures share a path. -/
def PathsDistinguish (failures : List Failure) : Prop :=
  ∀ x ∈ failures, ∀ y ∈ failures, x.path = y.path → x = y

/-- Whether paths tell failures apart does not depend on their order. -/
theorem PathsDistinguish.perm (hpaths : PathsDistinguish first) (hperm : first.Perm second) :
    PathsDistinguish second := fun x hx y hy =>
  hpaths x (hperm.mem_iff.mpr hx) y (hperm.mem_iff.mpr hy)

/-- Failures that are told apart by their paths have only one order by path. -/
theorem PathsDistinguish.mergeSort_eq (hpaths : PathsDistinguish first)
    (hperm : first.Perm second) : first.mergeSort pathLE = second.mergeSort pathLE := by
  refine List.Perm.eq_of_pairwise ?_ (pairwise_mergeSort first) (pairwise_mergeSort second)
    ((List.mergeSort_perm first pathLE).trans
      (hperm.trans (List.mergeSort_perm second pathLE).symm))
  intro x y hx hy hxy hyx
  have hmem := hperm.mem_iff.mpr (List.mem_mergeSort.mp hy)
  exact hpaths x (List.mem_mergeSort.mp hx) y hmem (String.le_antisymm hxy hyx)

end Failure

namespace CensusReport

/-- That two reports differ at most in the order of failures that share a path. -/
structure AgreesUpToTies (first second : CensusReport) : Prop where
  /-- All but the failures is the same. -/
  others : { first with failures := second.failures } = second
  /-- The same failures are listed. -/
  failures : first.failures.Perm second.failures
  /-- The failures of the first report stand in the order of their paths. -/
  orderedFirst : first.failures.Pairwise (·.path ≤ ·.path)
  /-- So do those of the second report. -/
  orderedSecond : second.failures.Pairwise (·.path ≤ ·.path)

/-- Reports that agree up to ties are the same when their failures are in the same order. -/
theorem AgreesUpToTies.eq_of_failures {first second : CensusReport}
    (hagree : first.AgreesUpToTies second) (hfailures : first.failures = second.failures) :
    first = second := by
  rw [← hagree.others, ← hfailures]

/-- Sessions that list the same names and keep the same failures in some order have reports that
agree up to ties. -/
theorem agreesUpToTies_ofSession {first second : Session} (archive : String)
    (dependencyJars : Nat) (decryptionEnabled : Bool) (hstats : first.stats = second.stats)
    (hnames : ∀ category isRoot,
      first.census.names category isRoot = second.census.names category isRoot)
    (hfailures : first.failures.Perm second.failures) :
    (ofSession archive dependencyJars decryptionEnabled first).AgreesUpToTies
      (ofSession archive dependencyJars decryptionEnabled second) where
  others := by
    simp only [ofSession, namesOf, Census.summary_eq, hstats, hnames]
  failures := (List.mergeSort_perm _ _).trans (hfailures.trans (List.mergeSort_perm _ _).symm)
  orderedFirst := Failure.pairwise_mergeSort first.failures
  orderedSecond := Failure.pairwise_mergeSort second.failures

end CensusReport

end JarCensus
