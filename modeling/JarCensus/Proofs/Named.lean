import Mathlib.Data.List.Nodup

/-!
# Named values

The value of a name in a list of named values is the first one of that name. When no two
names are the same it is the only one.
-/

namespace JarCensus

variable {α : Type} {named : List (String × α)} {name : String} {value : α}

/-- A name has no value exactly when it is not among the names. -/
theorem lookup_eq_none_iff_notMem : named.lookup name = none ↔ name ∉ named.map Prod.fst := by
  simp only [List.lookup_eq_none_iff, bne_iff_ne, List.mem_map, not_exists, not_and]
  exact forall₂_congr fun _ _ => ne_comm

/-- Among different names, a name has the value that stands with it. -/
theorem lookup_eq_some_iff_mem (hdistinct : (named.map Prod.fst).Nodup) :
    named.lookup name = some value ↔ (name, value) ∈ named := by
  rw [List.lookup_eq_some_iff]
  constructor
  · rintro ⟨front, back, rfl, -⟩
    simp
  · intro hmem
    obtain ⟨front, back, rfl⟩ := List.append_of_mem hmem
    refine ⟨front, back, rfl, fun other hother => ?_⟩
    rw [List.map_append, List.nodup_append] at hdistinct
    have hne := hdistinct.2.2 other.1 (List.mem_map_of_mem hother) name (by simp)
    exact bne_iff_ne.mpr hne.symm

/-- The value of another name does not count. -/
theorem lookup_cons_of_ne {other : String} (hne : name ≠ other) :
    List.lookup name ((other, value) :: named) = named.lookup name := by
  rw [List.lookup_cons, beq_false_of_ne hne]

/-- The first name has the first value, and the others have those that follow. -/
theorem lookup_cons_eq (other : String) (value : α) (named : List (String × α)) (name : String) :
    List.lookup name ((other, value) :: named) =
      if name = other then some value else named.lookup name := by
  by_cases hname : name = other
  · rw [if_pos hname, hname, List.lookup_cons_self]
  · rw [if_neg hname, lookup_cons_of_ne hname]

/-- The order of different names does not matter. -/
theorem lookup_eq_of_perm {others : List (String × α)} (hperm : named.Perm others)
    (hdistinct : (named.map Prod.fst).Nodup) (name : String) :
    named.lookup name = others.lookup name := by
  apply Option.ext
  intro value
  rw [lookup_eq_some_iff_mem hdistinct,
    lookup_eq_some_iff_mem ((hperm.map Prod.fst).nodup_iff.mp hdistinct), hperm.mem_iff]

end JarCensus
