import JarCensus.Proofs.Listing

/-!
# Jars with members that are refused

A jar is listed only when all of its members can be opened, also those that hold no class. When
one is refused, nothing of the jar is listed: a nested jar is then left out of the jar around it,
from which everything else is listed as without it.
-/

namespace JarCensus.Listing

variable {fs : FileSystem} {path label : String} {isRoot : Bool} {levels : Nat} {bytes : Bytes}
  {members : List Zip.Member} {fault : Zip.Fault} {jar : OpenJar} {item : Zip.Item}
  {before after : List Zip.Item}

/-- That a member is refused with a fault, and none in front of it is. -/
def FirstRefused (archive : Array UInt8) (members : List Zip.Member) (fault : Zip.Fault) : Prop :=
  ∃ before member after, members = before ++ member :: after ∧
    (∀ other ∈ before, ∃ item, Zip.Item.find archive other = .ok item) ∧
    Zip.Item.find archive member = .error fault

/-- A jar of which some member is refused cannot be opened. -/
theorem ofBytes?_eq_none (hmembers : Zip.members bytes = .ok members)
    (hrefused : FirstRefused bytes.toArray members fault) : OpenJar.ofBytes? bytes = none := by
  cases hjar : OpenJar.ofBytes? bytes with
  | none => rfl
  | some jar =>
    obtain ⟨members', hmembers', hitems, -⟩ := OpenJar.ofBytes?_eq_some_iff.mp hjar
    cases hmembers.symm.trans hmembers'
    cases (mapM_eq_error_iff.mpr hrefused).symm.trans hitems

/-- Of a jar whose members can all be opened, the entries are listed. -/
theorem exists_ofJar_of_items {items : List Zip.Item} (hmembers : Zip.members bytes = .ok members)
    (hitems : members.mapM (Zip.Item.find bytes.toArray) = .ok items) :
    ∃ entries, ofJar levels label isRoot bytes = .ok entries := by
  have hjar : OpenJar.ofBytes? bytes = some ⟨bytes.toArray, items⟩ :=
    OpenJar.ofBytes?_eq_some_iff.mpr ⟨members, hmembers, hitems, rfl⟩
  exact ⟨_, ofJar_eq hjar⟩

/-- Listing a jar fails with the fault of its first member that is refused. -/
theorem ofJar_eq_refused_iff (hmembers : Zip.members bytes = .ok members) :
    ofJar levels label isRoot bytes = .error (.refused fault) ↔
      FirstRefused bytes.toArray members fault := by
  rw [FirstRefused, ← mapM_eq_error_iff]
  cases hitems : members.mapM (Zip.Item.find bytes.toArray) with
  | ok items =>
    have hlisted : ∃ entries, ofJar levels label isRoot bytes = .ok entries :=
      exists_ofJar_of_items hmembers hitems
    obtain ⟨entries, hentries⟩ := hlisted
    exact iff_of_false (by simp [hentries]) (by simp)
  | error found =>
    have hopened : (Zip.members bytes).mapError (ListingError.badStructure label) = .ok members :=
      mapError_eq_ok_iff.mpr hmembers
    have hfailed : (members.mapM (Zip.Item.find bytes.toArray)).mapError ListingError.refused =
        .error (.refused found) :=
      mapError_eq_error_iff.mpr ⟨found, hitems, rfl⟩
    have hlisted : ofJar levels label isRoot bytes = .error (.refused found) := by
      unfold ofJar
      rw [hopened]
      simp only [bind, Except.bind, hfailed]
    rw [hlisted, Except.error.injEq, Except.error.injEq, ListingError.refused.injEq]

/-- A jar is listed exactly when all of its members can be opened. -/
theorem exists_ofJar_iff (hmembers : Zip.members bytes = .ok members) :
    (∃ entries, ofJar levels label isRoot bytes = .ok entries) ↔
      ∀ member ∈ members, ∃ item, Zip.Item.find bytes.toArray member = .ok item := by
  rw [← mapM_isOk_iff]
  cases hitems : members.mapM (Zip.Item.find bytes.toArray) with
  | ok items => exact iff_of_true (exists_ofJar_of_items hmembers hitems) ⟨items, rfl⟩
  | error found =>
    have hlisted : ofJar levels label isRoot bytes = .error (.refused found) :=
      (ofJar_eq_refused_iff hmembers).mpr (mapM_eq_error_iff.mp hitems)
    exact iff_of_false (by simp [hlisted]) (by simp)

/-- The entries that members of a jar give, and those of the jars among them. -/
def entriesOfItems (levels : Nat) (label : String) (isRoot : Bool) (jar : OpenJar)
    (items : List Zip.Item) : List Entry :=
  items.filterMap (entryOf? label isRoot jar) ++
    match levels with
    | 0 => []
    | levels + 1 => items.flatMap fun item => (jar.nestedOf? item).elim [] fun found =>
      (ofJar levels (label ++ "!/" ++ found.1) false found.2).toOption.getD []

/-- Listing a jar gives what its members give. -/
theorem ofJar_eq_entriesOfItems (hjar : OpenJar.ofBytes? bytes = some jar) :
    ofJar levels label isRoot bytes = .ok (entriesOfItems levels label isRoot jar jar.items) :=
  ofJar_of_some hjar

/-- A member with the name of a jar gives no class entry itself. -/
theorem entryOf?_of_nestedOf? {found : String × Bytes} (hnested : jar.nestedOf? item = some found) :
    entryOf? label isRoot jar item = none := by
  have hname : endsIn ".jar" item.member.name = true := by
    by_contra hname
    simp [OpenJar.nestedOf?, hname] at hnested
  simp [entryOf?, OpenJar.classOf?, isClassName_of_endsIn_jar hname]

/-- A nested jar that cannot be opened is left out, and the other members of the jar around it
give what they give without it. -/
theorem ofJar_of_broken_nested {outer : Bytes} {name : String}
    (hjar : OpenJar.ofBytes? outer = some jar) (hitems : jar.items = before ++ item :: after)
    (hnested : jar.nestedOf? item = some (name, bytes)) (hbroken : OpenJar.ofBytes? bytes = none) :
    ofJar levels label isRoot outer =
      .ok (entriesOfItems levels label isRoot jar (before ++ after)) := by
  rw [ofJar_eq_entriesOfItems hjar, hitems]
  refine congrArg _ ?_
  unfold entriesOfItems
  rw [List.filterMap_append, List.filterMap_cons_none (entryOf?_of_nestedOf? hnested),
    List.filterMap_append]
  refine congrArg _ ?_
  cases levels with
  | zero => rfl
  | succ levels =>
    obtain ⟨error, herror⟩ := ofJar_of_none levels (label ++ "!/" ++ name) false hbroken
    simp [hnested, herror, Except.toOption]

end JarCensus.Listing
