import Mathlib.Data.List.Sort
import JarCensus.Census

/-!
# Looking up what was recorded

A census is determined by what it answers when it is asked for a category, an origin
and a name. After a row of recordings the answer is the last of them under that key,
and what was there before when there is none.
-/

namespace JarCensus

namespace Partition

variable {first second : Partition}

/-- A placed descriptor is found under its name and hides no other name. -/
theorem find?_place (descriptor : Descriptor) (entries : List Descriptor) (name : String) :
    (place descriptor entries).find? (·.name == name) =
      if descriptor.name = name then some descriptor else entries.find? (·.name == name) := by
  induction entries with
  | nil => by_cases hname : descriptor.name = name <;> simp [place, hname]
  | cons head rest ih =>
    unfold place
    split
    · by_cases hname : descriptor.name = name <;> simp [hname]
    · split
      · rename_i hsame
        by_cases hname : descriptor.name = name
        · simp [hname]
        · have hhead : head.name ≠ name := hsame ▸ hname
          simp [hname, hhead]
      · rename_i hother
        by_cases hhead : head.name = name
        · have hname : descriptor.name ≠ name := fun h => hother (h.trans hhead.symm)
          simp [hhead, hname]
        · simp [hhead, ih]

/-- Inserting a descriptor changes the answer for its own name only. -/
theorem get?_insert (partition : Partition) (descriptor : Descriptor) (name : String) :
    (partition.insert descriptor).get? name =
      if descriptor.name = name then some descriptor else partition.get? name :=
  find?_place descriptor partition.entries name

/-- The descriptors of a partition are those that it answers with for their own names.
This is where the increasing order of the names matters: no descriptor hides another. -/
theorem mem_entries_iff (partition : Partition) (descriptor : Descriptor) :
    descriptor ∈ partition.entries ↔ partition.get? descriptor.name = some descriptor := by
  constructor
  · intro hmem
    obtain ⟨before, after, hsplit⟩ := List.append_of_mem hmem
    have hincreasing := partition.increasing
    rw [hsplit] at hincreasing
    refine List.find?_eq_some_iff_append.mpr ⟨by simp, before, after, hsplit, ?_⟩
    intro earlier hearlier
    have hless := (List.pairwise_append.mp hincreasing).2.2 earlier hearlier descriptor (by simp)
    have hne : earlier.name ≠ descriptor.name := fun h => String.lt_irrefl _ (h ▸ hless)
    simp [hne]
  · exact List.mem_of_find?_eq_some

/-- A name is listed exactly when the partition has an answer for it. -/
theorem mem_names_iff (partition : Partition) (name : String) :
    name ∈ partition.names ↔ (partition.get? name).isSome := by
  simp [names, get?, List.find?_isSome]

/-- The listed names increase. -/
theorem names_increasing (partition : Partition) : partition.names.Pairwise (· < ·) :=
  List.pairwise_map.mpr partition.increasing

/-- Partitions with the same answers are the same. -/
theorem eq_of_get? (h : ∀ name, first.get? name = second.get? name) : first = second := by
  have hentries : first.entries = second.entries := by
    have hirrefl : Std.Irrefl fun x y : Descriptor => x.name < y.name :=
      ⟨fun x => String.lt_irrefl x.name⟩
    have hantisymm : Std.Antisymm fun x y : Descriptor => x.name < y.name :=
      ⟨fun _ _ hless hmore => absurd hmore (String.lt_asymm hless)⟩
    refine List.Pairwise.eq_of_mem_iff first.increasing second.increasing fun descriptor => ?_
    rw [mem_entries_iff, mem_entries_iff, h]
  cases first
  cases second
  simpa using hentries

/-- Partitions with answers for the same names list the same names. -/
theorem names_eq_of_isSome
    (h : ∀ name, (first.get? name).isSome = (second.get? name).isSome) :
    first.names = second.names := by
  refine List.Pairwise.eq_of_mem_iff first.names_increasing second.names_increasing fun name => ?_
  rw [mem_names_iff, mem_names_iff, h]

end Partition

namespace Census

variable {first second : Census}

/-- A recording replaces the partition of its category and origin and no other. -/
theorem partition?_record (census : Census) (descriptor : Descriptor) (origin : Bool)
    (category : Category) (isRoot : Bool) :
    (census.record descriptor origin).partition? category isRoot =
      if descriptor.category = category ∧ origin = isRoot then
        (census.partition? category isRoot).map (·.insert descriptor)
      else census.partition? category isRoot := by
  unfold record
  split <;> rename_i hcategory <;> cases category <;> cases isRoot <;>
    simp [hcategory, partition?]

/-- The answer of a census is the answer of the partition that is asked. -/
theorem get?_eq (census : Census) (category : Category) (isRoot : Bool) (name : String) :
    census.get? category isRoot name =
      (census.partition? category isRoot).bind (·.get? name) := rfl

/-- The names of a category and an origin are those of their partition. -/
theorem names_eq (census : Census) (category : Category) (isRoot : Bool) :
    census.names category isRoot =
      ((census.partition? category isRoot).map (·.names)).getD [] := by
  unfold names descriptors
  cases census.partition? category isRoot <;> rfl

/-- The number of names in each partition is that of the listed names. -/
theorem summary_eq (census : Census) : census.summary =
    ⟨(census.names .model true).length, (census.names .model false).length,
      (census.names .converter true).length, (census.names .converter false).length⟩ := by
  simp [summary, names_eq, partition?, Partition.size, Partition.names]

/-- There is a partition for a category unless it is the category of neither. -/
theorem partition?_eq_none_iff (census : Census) (category : Category) (isRoot : Bool) :
    census.partition? category isRoot = none ↔ category = .other := by
  cases category <;> cases isRoot <;> simp [partition?]

/-- Censuses with the same answers are the same. -/
theorem eq_of_get?
    (h : ∀ category isRoot name,
      first.get? category isRoot name = second.get? category isRoot name) :
    first = second := by
  have hroots := Partition.eq_of_get? (h .model true)
  have hothers := Partition.eq_of_get? (h .model false)
  have hrootConverters := Partition.eq_of_get? (h .converter true)
  have hotherConverters := Partition.eq_of_get? (h .converter false)
  cases first
  cases second
  simp_all

/-- Censuses with answers for the same keys list the same names. -/
theorem names_eq_of_isSome {category : Category} {isRoot : Bool}
    (h : ∀ name,
      (first.get? category isRoot name).isSome = (second.get? category isRoot name).isSome) :
    first.names category isRoot = second.names category isRoot := by
  rw [names_eq, names_eq]
  cases category <;> cases isRoot
  case other.false | other.true => rfl
  all_goals exact Partition.names_eq_of_isSome h

/-- The empty census has no answers. -/
theorem get?_empty (category : Category) (isRoot : Bool) (name : String) :
    empty.get? category isRoot name = none := by
  cases category <;> cases isRoot <;> rfl

/-- Whether a descriptor recorded with an origin is found under a key. Nothing is found
under the category of neither. -/
def lands (category : Category) (isRoot : Bool) (name : String)
    (recording : Descriptor × Bool) : Bool :=
  category ≠ .other ∧ recording.1.category = category ∧ recording.2 = isRoot ∧
    recording.1.name = name

/-- A recording is the answer under its key and changes no other answer. -/
theorem get?_record (census : Census) (recording : Descriptor × Bool)
    (category : Category) (isRoot : Bool) (name : String) :
    (census.record recording.1 recording.2).get? category isRoot name =
      if lands category isRoot name recording then some recording.1
      else census.get? category isRoot name := by
  rw [get?_eq, get?_eq, partition?_record]
  have hnone := partition?_eq_none_iff census category isRoot
  cases hpartition : census.partition? category isRoot with
  | none => simp [lands, hnone.mp hpartition]
  | some partition =>
    have hkept : category ≠ .other := fun h => by simp [hnone.mpr h] at hpartition
    by_cases hkey : recording.1.category = category ∧ recording.2 = isRoot
    · simp [lands, hkept, hkey, Partition.get?_insert]
    · have hmiss : ¬ lands category isRoot name recording := by
        simp only [lands, decide_eq_true_eq]
        exact fun h => hkey ⟨h.2.1, h.2.2.1⟩
      simp [hkey, hmiss]

/-- The census after descriptors are recorded with their origins, one after the other. -/
def recordAll (census : Census) (recordings : List (Descriptor × Bool)) : Census :=
  recordings.foldl (fun census recording => census.record recording.1 recording.2) census

/-- Recording two rows is recording one and then the other. -/
theorem recordAll_append (census : Census) (recordings more : List (Descriptor × Bool)) :
    census.recordAll (recordings ++ more) = (census.recordAll recordings).recordAll more :=
  List.foldl_append

/-- After a row of recordings the last one under a key is the answer, and the answer from
before stands when there is none. -/
theorem get?_recordAll (census : Census) (recordings : List (Descriptor × Bool))
    (category : Category) (isRoot : Bool) (name : String) :
    (census.recordAll recordings).get? category isRoot name =
      ((recordings.reverse.find? (lands category isRoot name)).map (·.1)).or
        (census.get? category isRoot name) := by
  induction recordings generalizing census with
  | nil => simp [recordAll]
  | cons recording rest ih =>
    have hstep : census.recordAll (recording :: rest) =
        (census.record recording.1 recording.2).recordAll rest := rfl
    rw [hstep, ih, get?_record, List.reverse_cons, List.find?_append]
    cases hlast : rest.reverse.find? (lands category isRoot name) with
    | some later => simp
    | none =>
      by_cases hlands : lands category isRoot name recording <;> simp [hlands]

/-- A key has an answer after a row of recordings when one of them is under it, or when it
had one before. Their order does not matter for this. -/
theorem isSome_get?_recordAll (census : Census) (recordings : List (Descriptor × Bool))
    (category : Category) (isRoot : Bool) (name : String) :
    ((census.recordAll recordings).get? category isRoot name).isSome =
      (recordings.any (lands category isRoot name) ||
        (census.get? category isRoot name).isSome) := by
  rw [get?_recordAll, Option.isSome_or, Option.isSome_map, List.isSome_find?, List.any_reverse]

/-- The same recordings in another order give the same names. -/
theorem names_recordAll_perm (census : Census) {recordings others : List (Descriptor × Bool)}
    (hperm : recordings.Perm others) (category : Category) (isRoot : Bool) :
    (census.recordAll recordings).names category isRoot =
      (census.recordAll others).names category isRoot := by
  refine names_eq_of_isSome fun name => ?_
  rw [isSome_get?_recordAll, isSome_get?_recordAll, hperm.any_eq]

/-- The key of a recording: its category, its origin and its class name. -/
def key (recording : Descriptor × Bool) : Category × Bool × String :=
  (recording.1.category, recording.2, recording.1.name)

/-- A recording lands under its own key only. -/
theorem key_eq_of_lands {category : Category} {isRoot : Bool} {name : String}
    {recording : Descriptor × Bool} (h : lands category isRoot name recording) :
    key recording = (category, isRoot, name) := by
  simp only [lands, decide_eq_true_eq] at h
  simp [key, h]

/-- Two recordings under different keys may be made in either order. -/
theorem record_comm (census : Census) {recording other : Descriptor × Bool}
    (hkeys : key recording ≠ key other) :
    (census.record recording.1 recording.2).record other.1 other.2 =
      (census.record other.1 other.2).record recording.1 recording.2 := by
  refine eq_of_get? fun category isRoot name => ?_
  simp only [get?_record]
  by_cases hrecording : lands category isRoot name recording
  · have hother : ¬ lands category isRoot name other := fun h =>
      hkeys ((key_eq_of_lands hrecording).trans (key_eq_of_lands h).symm)
    simp [hrecording, hother]
  · simp [hrecording]

/-- Recordings under distinct keys give the same census in any order. -/
theorem recordAll_perm (census : Census) {recordings others : List (Descriptor × Bool)}
    (hperm : recordings.Perm others) (hkeys : (recordings.map key).Nodup) :
    census.recordAll recordings = census.recordAll others := by
  refine hperm.foldl_eq' (fun recording hrecording other hother census => ?_) census
  by_cases hsame : recording = other
  · rw [hsame]
  · have hne : key recording ≠ key other := fun h =>
      hsame (List.inj_on_of_nodup_map hkeys hrecording hother h)
    exact record_comm census hne

end Census

end JarCensus
