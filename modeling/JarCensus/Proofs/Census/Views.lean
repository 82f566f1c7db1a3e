import Mathlib.Data.List.Dedup
import Mathlib.Data.List.Sort
import JarCensus.Proofs.Census
import JarCensus.Proofs.Text.Order

/-!
# The views of a census

After a row of recordings all views of a census follow from one fact: under each key there
is the last descriptor that was recorded there. The order of recordings under different keys
does not show in any view.
-/

namespace JarCensus.Census

variable {recordings others : List (Descriptor × Bool)} {category : Category} {isRoot : Bool}
  {name : String} {descriptor : Descriptor}

/-- The recordings under a key, in their order. -/
def under (key' : Category × Bool × String) (recordings : List (Descriptor × Bool)) :
    List (Descriptor × Bool) := recordings.filter (key · = key')

/-- A recording lands under its key, unless it has the category of neither. -/
theorem lands_iff {recording : Descriptor × Bool} : lands category isRoot name recording ↔
    category ≠ .other ∧ key recording = (category, isRoot, name) := by
  simp [lands, key]

/-- Under each key there is the last descriptor recorded there. -/
theorem get?_recordAll_empty (recordings : List (Descriptor × Bool)) (hkept : category ≠ .other)
    (isRoot : Bool) (name : String) :
    (empty.recordAll recordings).get? category isRoot name =
      (under (category, isRoot, name) recordings).getLast?.map (·.1) := by
  have hlands : lands category isRoot name = fun recording =>
      decide (key recording = (category, isRoot, name)) := by
    funext recording
    rw [Bool.eq_iff_iff, lands_iff]
    simp [hkept]
  rw [get?_recordAll, get?_empty, Option.or_none, hlands, ← List.head?_filter, List.filter_reverse,
    List.head?_reverse, under]

/-- Nothing is found under the category of neither. -/
theorem get?_other (census : Census) (isRoot : Bool) (name : String) :
    census.get? .other isRoot name = none := rfl

/-- A descriptor is listed in a partition exactly when it is found there under its name. -/
theorem mem_descriptors_iff (census : Census) : descriptor ∈ census.descriptors category isRoot ↔
    census.get? category isRoot descriptor.name = some descriptor := by
  rw [get?_eq, descriptors]
  cases census.partition? category isRoot with
  | none => simp
  | some partition => exact partition.mem_entries_iff descriptor

/-- A name is listed in a partition exactly when something is found there under it. -/
theorem mem_names_iff_isSome (census : Census) : name ∈ census.names category isRoot ↔
    (census.get? category isRoot name).isSome := by
  rw [get?_eq, names_eq]
  cases census.partition? category isRoot with
  | none => simp
  | some partition => exact partition.mem_names_iff name

/-- What is found under a key has the category and the name of the key. -/
theorem of_get?_recordAll_empty
    (hfound : (empty.recordAll recordings).get? category isRoot name = some descriptor) :
    descriptor.category = category ∧ descriptor.name = name := by
  rw [get?_recordAll, get?_empty, Option.or_none, Option.map_eq_some_iff] at hfound
  obtain ⟨recording, hlast, rfl⟩ := hfound
  have hkey := key_eq_of_lands (List.find?_some hlast)
  simp only [key, Prod.mk.injEq] at hkey
  exact ⟨hkey.1, hkey.2.2⟩

/-- The names of a partition are those that were recorded there. -/
theorem mem_names_recordAll_empty : name ∈ (empty.recordAll recordings).names category isRoot ↔
    category ≠ .other ∧ ∃ recording ∈ recordings, key recording = (category, isRoot, name) := by
  rw [mem_names_iff_isSome, isSome_get?_recordAll, get?_empty]
  simp only [Option.isSome_none, Bool.or_false, List.any_eq_true, lands_iff]
  constructor
  · rintro ⟨recording, hmem, hkept, hkey⟩
    exact ⟨hkept, recording, hmem, hkey⟩
  · rintro ⟨hkept, recording, hmem, hkey⟩
    exact ⟨recording, hmem, hkept, hkey⟩

/-- The listed names increase. -/
theorem names_increasing (census : Census) (category : Category) (isRoot : Bool) :
    (census.names category isRoot).Pairwise (· < ·) := by
  rw [names_eq]
  cases census.partition? category isRoot with
  | none => exact .nil
  | some partition => exact partition.names_increasing

/-- The partitions. -/
def partitions : List (Category × Bool) :=
  [(.model, true), (.model, false), (.converter, true), (.converter, false)]

/-- The keys under which a census has something. -/
def heldKeys (census : Census) : List (Category × Bool × String) :=
  partitions.flatMap fun (category, isRoot) =>
    (census.names category isRoot).map (category, isRoot, ·)

/-- The size of a census is the number of its keys. -/
theorem size_eq_length_heldKeys (census : Census) : census.size = census.heldKeys.length := by
  simp [size, heldKeys, partitions, names_eq, partition?, Partition.size, Partition.names]
  omega

/-- A census has something under the keys of the listed names. -/
theorem mem_heldKeys_iff (census : Census) :
    (category, isRoot, name) ∈ census.heldKeys ↔
      category ≠ .other ∧ name ∈ census.names category isRoot := by
  cases category <;> cases isRoot <;> simp [heldKeys, partitions]

/-- A census has each of its keys once. -/
theorem nodup_heldKeys (census : Census) : census.heldKeys.Nodup := by
  have hdistinct : partitions.Pairwise (· ≠ ·) := by decide
  refine List.nodup_flatMap.mpr ⟨fun partition _ => ?_, hdistinct.imp fun hne => ?_⟩
  · refine List.Nodup.map (fun x y h => by simpa using h) ?_
    exact (census.names_increasing _ _).imp fun hless => String.ne_of_lt hless
  · refine List.disjoint_left.mpr fun key hfirst hsecond => ?_
    obtain ⟨name, -, rfl⟩ := List.mem_map.mp hfirst
    obtain ⟨other, -, hkey⟩ := List.mem_map.mp hsecond
    simp only [Prod.mk.injEq] at hkey
    exact hne (Prod.ext hkey.1.symm hkey.2.1.symm)

/-- The distinct keys of the recordings that are kept. -/
def keptKeys (recordings : List (Descriptor × Bool)) : List (Category × Bool × String) :=
  ((recordings.filter (·.1.category ≠ .other)).map key).dedup

/-- A key is kept when there is a recording under it, unless it has the category of neither. -/
theorem mem_keptKeys_iff : (category, isRoot, name) ∈ keptKeys recordings ↔
    category ≠ .other ∧ ∃ recording ∈ recordings, key recording = (category, isRoot, name) := by
  simp only [keptKeys, List.mem_dedup, List.mem_map, List.mem_filter, decide_eq_true_eq]
  constructor
  · rintro ⟨recording, ⟨hmem, hkept⟩, hkey⟩
    have hcategory : recording.1.category = category := congrArg Prod.fst hkey
    exact ⟨hcategory ▸ hkept, recording, hmem, hkey⟩
  · rintro ⟨hkept, recording, hmem, hkey⟩
    have hcategory : recording.1.category = category := congrArg Prod.fst hkey
    exact ⟨recording, ⟨hmem, hcategory ▸ hkept⟩, hkey⟩

/-- A census has the kept keys of what was recorded. -/
theorem heldKeys_perm (recordings : List (Descriptor × Bool)) :
    (empty.recordAll recordings).heldKeys.Perm (keptKeys recordings) := by
  have hnodup : (keptKeys recordings).Nodup := List.nodup_dedup _
  refine (List.perm_ext_iff_of_nodup (nodup_heldKeys _) hnodup).mpr ?_
  rintro ⟨category, isRoot, name⟩
  rw [mem_heldKeys_iff, mem_names_recordAll_empty, mem_keptKeys_iff, and_self_left]

/-- The size of a census is the number of distinct keys recorded, those of the category of
neither aside. -/
theorem size_recordAll_empty (recordings : List (Descriptor × Bool)) :
    (empty.recordAll recordings).size = (keptKeys recordings).length := by
  rw [size_eq_length_heldKeys, (heldKeys_perm recordings).length_eq]

/-- Recordings under the category of neither change nothing. -/
theorem recordAll_filter_kept (census : Census) (recordings : List (Descriptor × Bool)) :
    census.recordAll (recordings.filter (·.1.category ≠ .other)) =
      census.recordAll recordings := by
  induction recordings generalizing census with
  | nil => rfl
  | cons recording rest ih =>
    have hstep : census.recordAll (recording :: rest) =
        (census.record recording.1 recording.2).recordAll rest := rfl
    by_cases hother : recording.1.category = .other
    · have hsame : census.record recording.1 recording.2 = census := by
        simp only [record, hother]
      rw [List.filter_cons_of_neg (by simp [hother]), ih, hstep, hsame]
    · rw [List.filter_cons_of_pos (by simp [hother]), hstep, ← ih]
      rfl

/-- A census is empty exactly when only classes of neither category were recorded. -/
theorem isEmpty_recordAll_empty (recordings : List (Descriptor × Bool)) :
    (empty.recordAll recordings).isEmpty = true ↔
      ∀ recording ∈ recordings, recording.1.category = .other := by
  rw [isEmpty, beq_iff_eq, size_recordAll_empty, List.length_eq_zero_iff, keptKeys,
    List.dedup_eq_nil, List.map_eq_nil_iff, List.filter_eq_nil_iff]
  simp

/-- That two censuses cannot be told apart by their sizes, summaries and names. -/
structure ShowsSame (first second : Census) : Prop where
  /-- The sizes are the same. -/
  size : first.size = second.size
  /-- The summaries are the same. -/
  summary : first.summary = second.summary
  /-- The names are the same in each partition. -/
  names : ∀ category isRoot, first.names category isRoot = second.names category isRoot

/-- The same recordings in another order show the same. -/
theorem showsSame_of_perm (hperm : recordings.Perm others) :
    ShowsSame (empty.recordAll recordings) (empty.recordAll others) := by
  have hnames := names_recordAll_perm empty hperm
  constructor
  case size =>
    rw [size_eq_length_heldKeys, size_eq_length_heldKeys, heldKeys, heldKeys]
    simp only [hnames]
  case summary => simp only [summary_eq, hnames]
  case names => exact hnames

/-- That recordings are the same under each key, in the same order. -/
def SameUnderKeys (recordings others : List (Descriptor × Bool)) : Prop :=
  ∀ place, under place recordings = under place others

/-- Recordings that are the same under each key leave the same census behind. -/
theorem recordAll_eq_of_sameUnderKeys (hsame : SameUnderKeys recordings others) :
    empty.recordAll recordings = empty.recordAll others := by
  refine eq_of_get? fun category isRoot name => ?_
  by_cases hkept : category = .other
  · rw [hkept, get?_other, get?_other]
  · rw [get?_recordAll_empty _ hkept, get?_recordAll_empty _ hkept, hsame]

/-- That a row is made of rows by taking the first item of any of them again and again, until
all of them are used up. -/
inductive Interleaves {α : Type} : List (List α) → List α → Prop
  /-- Rows that are used up make no row. -/
  | done {rows : List (List α)} : (∀ row ∈ rows, row = []) → Interleaves rows []
  /-- The first item of one of the rows comes first. -/
  | take {before after : List (List α)} {item : α} {rest merged : List α} :
    Interleaves (before ++ rest :: after) merged →
      Interleaves (before ++ (item :: rest) :: after) (item :: merged)

/-- That rows of recordings have no keys in common. -/
def KeysApart (rows : List (List (Descriptor × Bool))) : Prop :=
  rows.Pairwise fun row other => ∀ x ∈ row, ∀ y ∈ other, key x ≠ key y

/-- Rows without common keys have none either when one of them is shorter. -/
theorem KeysApart.of_cons {before after : List (List (Descriptor × Bool))}
    {item : Descriptor × Bool} {rest : List (Descriptor × Bool)}
    (hapart : KeysApart (before ++ (item :: rest) :: after)) :
    KeysApart (before ++ rest :: after) := by
  obtain ⟨hbefore, hrow, hacross⟩ := List.pairwise_append.mp hapart
  obtain ⟨hfirst, hafter⟩ := List.pairwise_cons.mp hrow
  refine List.pairwise_append.mpr ⟨hbefore, List.pairwise_cons.mpr ⟨?_, hafter⟩, ?_⟩
  · intro other hother x hx
    exact hfirst other hother x (List.mem_cons_of_mem item hx)
  · intro row hmem other hother x hx y hy
    rcases List.mem_cons.mp hother with rfl | hmore
    · exact hacross row hmem _ List.mem_cons_self x hx y (List.mem_cons_of_mem item hy)
    · exact hacross row hmem other (List.mem_cons_of_mem _ hmore) x hx y hy

/-- However rows without common keys are interleaved, each key sees what it sees when they come
one after the other. The induction is on the interleaving: the item that it takes is alone with
its key in front of its row. -/
theorem sameUnderKeys_of_interleaves {rows : List (List (Descriptor × Bool))}
    {merged : List (Descriptor × Bool)} (hmerged : Interleaves rows merged)
    (hapart : KeysApart rows) : SameUnderKeys merged rows.flatten := by
  induction hmerged with
  | done hempty =>
    have hnone := List.flatten_eq_nil_iff.mpr hempty
    rw [hnone]
    exact fun _ => rfl
  | @take before after item rest merged _ ih =>
    intro place
    have hrest := ih hapart.of_cons place
    have hacross := (List.pairwise_append.mp hapart).2.2
    simp only [under, List.flatten_append, List.flatten_cons, List.filter_append] at hrest ⊢
    by_cases hplace : key item = place
    · have halone : before.flatten.filter (key · = place) = [] := by
        refine List.filter_eq_nil_iff.mpr fun x hx hkey => ?_
        obtain ⟨row, hrow, hxrow⟩ := List.mem_flatten.mp hx
        have hne := hacross row hrow (item :: rest) List.mem_cons_self x hxrow item
          List.mem_cons_self
        exact hne ((of_decide_eq_true hkey).trans hplace.symm)
      rw [halone, List.nil_append] at hrest ⊢
      rw [List.filter_cons_of_pos (by simpa using hplace), hrest,
        List.filter_cons_of_pos (by simpa using hplace), List.cons_append]
    · rw [List.filter_cons_of_neg (by simpa using hplace), hrest,
        List.filter_cons_of_neg (by simpa using hplace)]

/-- That all views of a census show the last descriptor recorded under each key. -/
structure LastWriteWins (recordings : List (Descriptor × Bool)) (census : Census) : Prop where
  /-- Under each key there is the last descriptor recorded there. -/
  answer : ∀ category isRoot name, category ≠ .other → census.get? category isRoot name =
    (under (category, isRoot, name) recordings).getLast?.map (·.1)
  /-- Recordings under the category of neither change nothing, and nothing is found there. -/
  unkept : census = empty.recordAll (recordings.filter (·.1.category ≠ .other)) ∧
    ∀ isRoot, census.descriptors .other isRoot = []
  /-- What is found under a key has the category and the name of the key. -/
  labelled : ∀ category isRoot name descriptor,
    census.get? category isRoot name = some descriptor →
      descriptor.category = category ∧ descriptor.name = name
  /-- The descriptors of a partition are those that are found there under their names. -/
  descriptors : ∀ category isRoot descriptor, descriptor ∈ census.descriptors category isRoot ↔
    census.get? category isRoot descriptor.name = some descriptor
  /-- The names of a partition are those recorded there. -/
  names : ∀ category isRoot name, name ∈ census.names category isRoot ↔
    category ≠ .other ∧ ∃ recording ∈ recordings, key recording = (category, isRoot, name)
  /-- The names increase in the order of their bytes. -/
  increasing : ∀ category isRoot, (census.names category isRoot).Pairwise fun x y =>
    Text.Utf8.encode x.toList < Text.Utf8.encode y.toList
  /-- The size is the number of distinct keys, those of the category of neither aside. -/
  size : census.size = (keptKeys recordings).length
  /-- The summary counts the names of each partition, which add up to the size. -/
  summary : census.summary = ⟨(census.names .model true).length,
      (census.names .model false).length, (census.names .converter true).length,
      (census.names .converter false).length⟩ ∧
    census.size = census.summary.rootModels + census.summary.nonRootModels +
      census.summary.rootConverters + census.summary.nonRootConverters
  /-- The census is empty when its size is zero, which is when nothing of a kept category was
  recorded. -/
  isEmpty : (census.isEmpty = true ↔ census.size = 0) ∧
    (census.isEmpty = true ↔ ∀ recording ∈ recordings, recording.1.category = .other)

/-- After a row of recordings all views of the census show the last one under each key. -/
theorem lastWriteWins_recordAll (recordings : List (Descriptor × Bool)) :
    LastWriteWins recordings (empty.recordAll recordings) := by
  constructor
  case answer =>
    intro category isRoot name hkept
    exact get?_recordAll_empty recordings hkept isRoot name
  case unkept => exact ⟨(recordAll_filter_kept empty recordings).symm, fun _ => rfl⟩
  case labelled => exact fun _ _ _ _ => of_get?_recordAll_empty
  case descriptors => exact fun _ _ _ => mem_descriptors_iff _
  case names => exact fun _ _ _ => mem_names_recordAll_empty
  case increasing =>
    intro category isRoot
    exact (names_increasing _ category isRoot).imp Text.Utf8.encode_lt_encode_iff.mpr
  case size => exact size_recordAll_empty recordings
  case summary => exact ⟨summary_eq _, rfl⟩
  case isEmpty => exact ⟨beq_iff_eq, isEmpty_recordAll_empty recordings⟩

/-- A census shows the last recording under each key, in all of its views. The same recordings in
another order show the same; they leave the same census behind when the order under each key is
the same, as it is whenever workers with keys of their own make them. -/
theorem recordAll_views (recordings : List (Descriptor × Bool)) :
    LastWriteWins recordings (empty.recordAll recordings) ∧
    (∀ others, recordings.Perm others →
      ShowsSame (empty.recordAll recordings) (empty.recordAll others)) ∧
    (∀ others, SameUnderKeys recordings others →
      empty.recordAll recordings = empty.recordAll others) ∧
    ∀ rows, Interleaves rows recordings → KeysApart rows →
      empty.recordAll recordings = empty.recordAll rows.flatten := by
  refine ⟨lastWriteWins_recordAll recordings, fun _ => showsSame_of_perm,
    fun _ => recordAll_eq_of_sameUnderKeys, fun rows hmerged hapart => ?_⟩
  exact recordAll_eq_of_sameUnderKeys (sameUnderKeys_of_interleaves hmerged hapart)

/-- A model of the given name, the stored bytes of which may be encrypted. -/
def emptyModel (name : String) (decrypted : Bool) : Descriptor :=
  ⟨name, .model, .content [], decrypted⟩

/-- What two workers record: the first one a class of the main archive twice, the second one a
class of the same name from elsewhere. -/
def workerRows : List (List (Descriptor × Bool)) :=
  [[(emptyModel "A" false, true), (emptyModel "A" true, true)], [(emptyModel "A" false, false)]]

/-- The same with the second worker in between. -/
def workerOrder : List (Descriptor × Bool) :=
  [(emptyModel "A" false, true), (emptyModel "A" false, false), (emptyModel "A" true, true)]

/-- One worker can record between two recordings of another. -/
theorem interleaves_workerOrder : Interleaves workerRows workerOrder := by
  have hdone : Interleaves [[], []] ([] : List (Descriptor × Bool)) := .done (by simp)
  have hthird : Interleaves ([] ++ [(emptyModel "A" true, true)] :: [[]]) _ := .take hdone
  have hsecond : Interleaves ([[(emptyModel "A" true, true)]] ++
    [(emptyModel "A" false, false)] :: []) _ := .take hthird
  exact @Interleaves.take _ [] _ _ _ _ hsecond

/-- With the second worker in between, the census is that of one worker after the other, and the
last recording of the first one is found. From last to first the recordings show the same sizes
and names. -/
theorem recordAll_views_workerOrder :
    Interleaves workerRows workerOrder ∧ KeysApart workerRows ∧
    empty.recordAll workerOrder = empty.recordAll workerRows.flatten ∧
    (empty.recordAll workerOrder).get? .model true "A" = some (emptyModel "A" true) ∧
    workerOrder.Perm workerOrder.reverse ∧
    ShowsSame (empty.recordAll workerOrder) (empty.recordAll workerOrder.reverse) := by
  have hapart : KeysApart workerRows := by
    unfold KeysApart
    decide
  have hperm : workerOrder.Perm workerOrder.reverse := (List.reverse_perm _).symm
  obtain ⟨hviews, hreordered, -, hworkers⟩ := recordAll_views workerOrder
  refine ⟨interleaves_workerOrder, hapart, hworkers _ interleaves_workerOrder hapart, ?_, hperm,
    hreordered _ hperm⟩
  rw [hviews.answer _ _ _ (by decide)]
  rfl

end JarCensus.Census
