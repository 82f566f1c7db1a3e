import JarCensus.Dependencies
import JarCensus.Proofs.Listing.Origin
import JarCensus.Proofs.Success

/-!
# Entries of dependencies

The entries of dependencies are those of all jars that are found in them and can be listed, in
the order in which they are found. A jar that cannot be listed has no part in them.
-/

namespace JarCensus.Dependencies

variable {fs : FileSystem} {paths : List String} {jar : String} {entry : Entry}

/-- The jars that are found in dependencies, one after the other. -/
def found (fs : FileSystem) (paths : List String) : List String :=
  paths.flatMap fun path => (jars fs path).toOption.getD []

/-- The entries of a jar, none if it cannot be listed. -/
def entriesOf (fs : FileSystem) (jar : String) : List Entry :=
  (Listing.inJar fs jar false).toOption.getD []

/-- Whether a jar can be listed. -/
def isListable (fs : FileSystem) (jar : String) : Bool := (Listing.inJar fs jar false).isOk

/-- A jar can be listed exactly when it can be read and all of its members can be opened. -/
theorem isListable_iff : isListable fs jar = true ↔
    ∃ bytes members, fs.read jar = .ok bytes ∧ Zip.IsArchive bytes members := by
  rw [← Listing.exists_inJar_iff, isListable]
  cases Listing.inJar fs jar false <;> simp [Except.isOk, Except.toBool]

/-- The jars that can be listed give their entries, and the others give nothing. -/
theorem listable_eq (fs : FileSystem) (jars : List String) :
    listable fs jars = (jars.flatMap (entriesOf fs), jars.countP (isListable fs)) := by
  induction jars with
  | nil => rfl
  | cons jar rest ih =>
    rw [listable, ih, List.flatMap_cons, List.countP_cons, entriesOf, isListable]
    cases Listing.inJar fs jar false with
    | error cause => simp [Except.toOption, Except.isOk, Except.toBool]
    | ok entries => simp [Except.toOption, Except.isOk, Except.toBool]

/-- Dependencies that can all be searched give the entries of the jars that are found in them. -/
theorem entries_eq (hfound : ∀ path ∈ paths, ∃ list, jars fs path = .ok list) :
    entries fs paths =
      .ok ((found fs paths).flatMap (entriesOf fs), (found fs paths).countP (isListable fs)) := by
  induction paths with
  | nil => rfl
  | cons path rest ih =>
    obtain ⟨⟨list, hlist⟩, hrest⟩ := List.forall_mem_cons.mp hfound
    have hjars : found fs (path :: rest) = list ++ found fs rest := by
      simp [found, hlist, Except.toOption]
    rw [hjars, List.flatMap_append, List.countP_append, entries]
    refine bind_eq_ok_iff.mpr ⟨list, hlist, ?_⟩
    simp only [listable_eq]
    exact bind_eq_ok_iff.mpr ⟨_, ih hrest, rfl⟩

/-- A jar is found when it is found in one of the dependencies. -/
theorem mem_found_iff : jar ∈ found fs paths ↔
    ∃ path ∈ paths, ∃ list, jars fs path = .ok list ∧ jar ∈ list := by
  rw [found, List.mem_flatMap]
  refine exists_congr fun path => and_congr_right fun _ => ?_
  cases jars fs path <;> simp [Except.toOption]

/-- The entries of a jar are those that stand at its places. -/
theorem mem_entriesOf_iff : entry ∈ entriesOf fs jar ↔
    ∃ place, Listing.StandsAt fs jar false place entry := by
  rw [entriesOf]
  cases hlisted : Listing.inJar fs jar false with
  | ok entries => exact Listing.mem_inJar_iff hlisted
  | error cause =>
    refine iff_of_false (List.not_mem_nil) ?_
    rintro ⟨place, hstands⟩
    obtain ⟨entries, hentries⟩ := Listing.exists_inJar_of_standsAt hstands
    cases hlisted.symm.trans hentries

end JarCensus.Dependencies
