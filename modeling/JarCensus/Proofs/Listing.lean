import Mathlib.Data.List.Basic
import JarCensus.Proofs.FileSystem.Name
import JarCensus.Proofs.Listing.Place
import JarCensus.Proofs.Zip.Inflate

/-!
# What is listed of a jar

Listing a jar goes through its places in their order, down to the second level of nested
jars, and takes the class entry at each place that has one.
-/

namespace JarCensus

section Positions

variable {α β : Type}

/-- Going through the positions of a list is going through the list. -/
theorem flatMap_range_getElem? (items : List α) (f : α → List β) :
    ((List.range items.length).flatMap fun index => items[index]?.elim [] f) =
      items.flatMap f := by
  induction items with
  | nil => rfl
  | cons item rest ih =>
    simp [List.range_succ_eq_map, List.flatMap_map, ih]

/-- Choosing from the positions of a list is choosing from the list. -/
theorem filterMap_range_getElem? (items : List α) (f : α → Option β) :
    ((List.range items.length).filterMap fun index => items[index]?.bind f) =
      items.filterMap f := by
  induction items with
  | nil => rfl
  | cons item rest ih =>
    rw [List.length_cons, List.range_succ_eq_map, List.filterMap_cons, List.filterMap_map,
      List.filterMap_cons]
    simp only [List.getElem?_cons_zero, Option.bind_some, Function.comp_def,
      Nat.succ_eq_add_one, List.getElem?_cons_succ, ih]

/-- Going through a part of a list is going through the list and passing over the rest. -/
theorem flatMap_filter (p : α → Bool) (f : α → List β) (items : List α) :
    (items.filter p).flatMap f = items.flatMap fun item => if p item then f item else [] := by
  induction items with
  | nil => rfl
  | cons item rest ih => cases hitem : p item <;> simp [hitem, ih]

end Positions

namespace OpenJar

variable {bytes : Bytes} {jar : OpenJar} {index : Nat}

/-- There is a class only at the positions of the jar. -/
theorem lt_of_classAt? (h : (jar.classAt? index).isSome) : index < jar.items.length := by
  by_contra hindex
  simp [classAt?, hindex] at h

/-- There is a nested jar only at the positions of the jar. -/
theorem lt_of_nestedAt? (h : (jar.nestedAt? index).isSome) : index < jar.items.length := by
  by_contra hindex
  simp [nestedAt?, hindex] at h

end OpenJar

namespace Listing

/-- The place below the nested jar at a position. -/
def Place.under (index : Nat) (place : Place) : Place := ⟨index :: place.jars, place.index⟩

/-- The places of the class entries of a jar itself. -/
def ownPlaces (jar : OpenJar) : List Place :=
  ((List.range jar.items.length).filter fun index => (jar.classAt? index).isSome).map (⟨[], ·⟩)

/-- The places in the jars that are nested in a jar, given the places within their bytes. -/
def belowPlaces (within : Bytes → List Place) (jar : OpenJar) : List Place :=
  (List.range jar.items.length).flatMap fun index =>
    (jar.nestedAt? index).elim [] fun found => (within found.2).map (.under index)

/-- The places of the class entries of a jar and of the jars nested in it to the given
level. -/
def placesOf : Nat → Bytes → List Place
  | 0, bytes => (OpenJar.ofBytes? bytes).elim [] ownPlaces
  | levels + 1, bytes =>
    (OpenJar.ofBytes? bytes).elim [] fun jar =>
      ownPlaces jar ++ belowPlaces (placesOf levels) jar

variable {bytes : Bytes} {jar : OpenJar} {path : String} {isRoot : Bool} {levels : Nat}

section Below

/-- The class entry at a place of the jar itself. -/
theorem entryAt?_own (hjar : OpenJar.ofBytes? bytes = some jar) (index : Nat) :
    entryAt? path isRoot bytes ⟨[], index⟩ =
      (jar.classAt? index).map fun found => ⟨found.1, isRoot, some path, found.2⟩ := by
  simp only [entryAt?, jarAt?, hjar, Option.bind_eq_bind, Option.bind_some, pure]
  cases jar.classAt? index <;> simp [containerName]

/-- The class entry at a place below a nested jar is the one at the place in that jar, which does
not belong to the main archive itself. -/
theorem entryAt?_under (hjar : OpenJar.ofBytes? bytes = some jar) (index : Nat) (place : Place) :
    entryAt? path isRoot bytes (place.under index) =
      (jar.nestedAt? index).bind fun found =>
        entryAt? (path ++ "!/" ++ found.1) false found.2 place := by
  simp only [entryAt?, Place.under, jarAt?, hjar, Option.bind_eq_bind, Option.bind_some, pure]
  cases jar.nestedAt? index with
  | none => simp
  | some found => cases hinner : jarAt? place.jars found.2 <;> simp [hinner, containerName]

/-- Bytes that are not those of a jar have no entries. -/
theorem entryAt?_of_none (hbytes : OpenJar.ofBytes? bytes = none) (place : Place) :
    entryAt? path isRoot bytes place = none := by
  obtain ⟨jars, index⟩ := place
  cases jars <;> simp [entryAt?, jarAt?, hbytes]

end Below

section Places

/-- Bytes that are not those of a jar have no places. -/
theorem placesOf_of_none (hbytes : OpenJar.ofBytes? bytes = none) :
    placesOf levels bytes = [] := by
  cases levels <;> simp [placesOf, hbytes]

/-- Without levels below, the places are those of the jar itself. -/
theorem placesOf_zero (hjar : OpenJar.ofBytes? bytes = some jar) :
    placesOf 0 bytes = ownPlaces jar := by
  simp [placesOf, hjar]

/-- With levels below, the places of the jar itself come before those of the nested jars. -/
theorem placesOf_succ (hjar : OpenJar.ofBytes? bytes = some jar) :
    placesOf (levels + 1) bytes = ownPlaces jar ++ belowPlaces (placesOf levels) jar := by
  simp [placesOf, hjar]

/-- There is a class entry at a place of the jar itself when there is a class at the position. -/
theorem mem_ownPlaces_iff (path : String) (isRoot : Bool)
    (hjar : OpenJar.ofBytes? bytes = some jar) {place : Place} :
    place ∈ ownPlaces jar ↔ place.jars = [] ∧ (entryAt? path isRoot bytes place).isSome := by
  obtain ⟨jars, index⟩ := place
  simp only [ownPlaces, List.mem_map, List.mem_filter, List.mem_range, Place.mk.injEq]
  constructor
  · rintro ⟨index, ⟨-, hclass⟩, rfl, rfl⟩
    exact ⟨rfl, by rw [entryAt?_own hjar, Option.isSome_map]; exact hclass⟩
  · rintro ⟨rfl, hentry⟩
    rw [entryAt?_own hjar, Option.isSome_map] at hentry
    exact ⟨index, ⟨OpenJar.lt_of_classAt? hentry, hentry⟩, rfl, rfl⟩

/-- The places below a jar are those in the jars nested in it. -/
theorem mem_belowPlaces_iff {within : Bytes → List Place} {place : Place} :
    place ∈ belowPlaces within jar ↔
      ∃ index inner found, place = Place.under index inner ∧
        jar.nestedAt? index = some found ∧ inner ∈ within found.2 := by
  simp only [belowPlaces, List.mem_flatMap, List.mem_range]
  constructor
  · rintro ⟨index, -, hplace⟩
    cases hnested : jar.nestedAt? index with
    | none => simp [hnested] at hplace
    | some found =>
      rw [hnested, Option.elim_some, List.mem_map] at hplace
      obtain ⟨inner, hinner, rfl⟩ := hplace
      exact ⟨index, inner, found, rfl, hnested, hinner⟩
  · rintro ⟨index, inner, found, rfl, hnested, hinner⟩
    refine ⟨index, OpenJar.lt_of_nestedAt? (by rw [hnested]; rfl), ?_⟩
    rw [hnested, Option.elim_some]
    exact List.mem_map_of_mem hinner

/-- A place in a nested jar is below the jar when it is a place within the nested one. -/
theorem under_mem_belowPlaces_iff {within : Bytes → List Place} {index : Nat} {place : Place} :
    place.under index ∈ belowPlaces within jar ↔
      ∃ found, jar.nestedAt? index = some found ∧ place ∈ within found.2 := by
  rw [mem_belowPlaces_iff]
  constructor
  · rintro ⟨other, inner, found, heq, hnested, hinner⟩
    obtain ⟨jars, position⟩ := place
    obtain ⟨jars', position'⟩ := inner
    cases heq
    exact ⟨found, hnested, hinner⟩
  · rintro ⟨found, hnested, hinner⟩
    exact ⟨index, place, found, rfl, hnested, hinner⟩

/-- The places of a jar are those with a class entry that are not too far down. -/
theorem mem_placesOf_iff (path : String) (isRoot : Bool) {place : Place} :
    place ∈ placesOf levels bytes ↔
      place.jars.length ≤ levels ∧ (entryAt? path isRoot bytes place).isSome := by
  induction levels generalizing bytes path isRoot place with
  | zero =>
    cases hjar : OpenJar.ofBytes? bytes with
    | none => simp [placesOf_of_none hjar, entryAt?_of_none hjar]
    | some jar =>
      rw [placesOf_zero hjar, mem_ownPlaces_iff path isRoot hjar, Nat.le_zero,
        List.length_eq_zero_iff]
  | succ levels ih =>
    cases hjar : OpenJar.ofBytes? bytes with
    | none => simp [placesOf_of_none hjar, entryAt?_of_none hjar]
    | some jar =>
      rw [placesOf_succ hjar, List.mem_append, mem_ownPlaces_iff path isRoot hjar]
      obtain ⟨jars, index⟩ := place
      cases jars with
      | nil => simp [mem_belowPlaces_iff, Place.under]
      | cons first rest =>
        have hunder : (⟨first :: rest, index⟩ : Place) = Place.under first ⟨rest, index⟩ := rfl
        rw [hunder, under_mem_belowPlaces_iff, entryAt?_under hjar]
        cases hnested : jar.nestedAt? first with
        | none => simp
        | some found => simp [Place.under, ih (path ++ "!/" ++ found.1) false]

/-- Places below nested jars come in the order of these. -/
theorem Place.before_under_of_lt {first second : Nat} (hless : first < second)
    (x y : Place) : (x.under first).Before (y.under second) :=
  .inl (List.Lex.rel hless)

/-- Places below one nested jar come in the order that they have in it. -/
theorem Place.Before.under {x y : Place} (hbefore : x.Before y) (index : Nat) :
    (x.under index).Before (y.under index) := by
  rcases hbefore with hjars | ⟨hjars, hindex⟩
  · exact .inl (List.Lex.cons hjars)
  · exact .inr ⟨congrArg (index :: ·) hjars, hindex⟩

/-- The places of a jar itself are in their order. -/
theorem pairwise_ownPlaces (jar : OpenJar) : (ownPlaces jar).Pairwise Place.Before := by
  refine List.pairwise_map.mpr ((List.pairwise_lt_range.filter _).imp ?_)
  exact fun hless => .inr ⟨rfl, hless⟩

/-- The places below a jar are in their order when those within each nested jar are. -/
theorem pairwise_belowPlaces {within : Bytes → List Place}
    (hwithin : ∀ bytes, (within bytes).Pairwise Place.Before) (jar : OpenJar) :
    (belowPlaces within jar).Pairwise Place.Before := by
  refine List.pairwise_flatMap.mpr ⟨fun index _ => ?_, ?_⟩
  · cases jar.nestedAt? index with
    | none => exact .nil
    | some found => exact List.pairwise_map.mpr ((hwithin found.2).imp fun h => h.under index)
  · refine List.pairwise_lt_range.imp fun {first second} hless x hx y hy => ?_
    cases hfirst : jar.nestedAt? first with
    | none => simp [hfirst] at hx
    | some found =>
      cases hsecond : jar.nestedAt? second with
      | none => simp [hsecond] at hy
      | some other =>
        simp only [hfirst, hsecond, Option.elim_some, List.mem_map] at hx hy
        obtain ⟨inner, -, rfl⟩ := hx
        obtain ⟨inner', -, rfl⟩ := hy
        exact Place.before_under_of_lt hless inner inner'

/-- The places of a jar are in their order. -/
theorem pairwise_placesOf (levels : Nat) (bytes : Bytes) :
    (placesOf levels bytes).Pairwise Place.Before := by
  induction levels generalizing bytes with
  | zero =>
    cases hjar : OpenJar.ofBytes? bytes with
    | none => simp [placesOf_of_none hjar]
    | some jar =>
      rw [placesOf_zero hjar]
      exact pairwise_ownPlaces jar
  | succ levels ih =>
    cases hjar : OpenJar.ofBytes? bytes with
    | none => simp [placesOf_of_none hjar]
    | some jar =>
      rw [placesOf_succ hjar]
      refine List.pairwise_append.mpr ⟨pairwise_ownPlaces jar, pairwise_belowPlaces ih jar, ?_⟩
      intro x hx y hy
      obtain ⟨hnil, -⟩ := (mem_ownPlaces_iff "" false hjar).mp hx
      obtain ⟨index, inner, found, rfl, -, -⟩ := mem_belowPlaces_iff.mp hy
      exact .inl (hnil ▸ List.Lex.nil)

end Places

section Entries

/-- A name of a jar is not that of a class. -/
theorem isClassName_of_endsIn_jar {name : String} (hname : endsIn ".jar" name = true) :
    isClassName name = false := by
  have hclass : endsIn ".class" name = false := by
    by_contra hclass
    simp only [endsIn, List.isSuffixOf_iff_suffix, Bool.not_eq_false] at hname hclass
    obtain ⟨front, hfront⟩ := hname
    obtain ⟨other, hother⟩ := hclass
    have hlast := congrArg List.getLast? (hfront.trans hother.symm)
    simp at hlast
  simp [isClassName, hclass]

/-- The class entry that a member of a jar gives. -/
def entryOf? (path : String) (isRoot : Bool) (jar : OpenJar) (item : Zip.Item) :
    Option Entry :=
  (jar.classOf? item).map fun found => ⟨found.1, isRoot, some path, found.2⟩

/-- The members that are files with the name of a class give the class entries of a jar. -/
theorem map_classFiles (path : String) (isRoot : Bool) (jar : OpenJar) :
    (((jar.items.filter fun item => !Zip.isFolderName item.member.name).filter
      fun item => isClassName item.member.name).map fun item =>
        (⟨item.member.name, isRoot, some path, item.stream jar.archive⟩ : Entry)) =
      jar.items.filterMap (entryOf? path isRoot jar) := by
  rw [← List.filterMap_eq_map, List.filterMap_filter, List.filterMap_filter]
  refine List.filterMap_congr fun item _ => ?_
  cases hfolder : Zip.isFolderName item.member.name <;>
    cases hclass : isClassName item.member.name <;>
    simp [entryOf?, OpenJar.classOf?, hfolder, hclass]

/-- The class entries of a jar itself are those that its members give. -/
theorem filterMap_ownPlaces (hjar : OpenJar.ofBytes? bytes = some jar) :
    (ownPlaces jar).filterMap (entryAt? path isRoot bytes) =
      jar.items.filterMap (entryOf? path isRoot jar) := by
  rw [ownPlaces, List.filterMap_map, List.filterMap_filter,
    ← filterMap_range_getElem? jar.items (entryOf? path isRoot jar)]
  refine List.filterMap_congr fun index _ => ?_
  simp only [Function.comp_apply, entryAt?_own hjar, OpenJar.classAt?]
  cases jar.items[index]? with
  | none => rfl
  | some item => cases hclass : jar.classOf? item <;> simp [entryOf?, hclass]

/-- The class entries below a jar are those of its nested jars. -/
theorem filterMap_belowPlaces (hjar : OpenJar.ofBytes? bytes = some jar)
    (within : Bytes → List Place) :
    (belowPlaces within jar).filterMap (entryAt? path isRoot bytes) =
      jar.items.flatMap fun item => (jar.nestedOf? item).elim [] fun found =>
        (within found.2).filterMap (entryAt? (path ++ "!/" ++ found.1) false found.2) := by
  rw [belowPlaces, List.filterMap_flatMap, ← flatMap_range_getElem? jar.items]
  refine List.flatMap_congr fun index _ => ?_
  have hnested : jar.nestedAt? index = jar.items[index]?.bind jar.nestedOf? := rfl
  rw [hnested]
  cases hitem : jar.items[index]? with
  | none => rfl
  | some item =>
    simp only [Option.bind_some, Option.elim_some]
    cases hfound : jar.nestedOf? item with
    | none => rfl
    | some found =>
      simp only [Option.elim_some, List.filterMap_map]
      refine List.filterMap_congr fun place _ => ?_
      rw [hitem, Option.bind_some, hfound] at hnested
      simp only [Function.comp_apply, entryAt?_under hjar, hnested, Option.bind_some]

/-- Bytes that are not those of a jar cannot be listed. -/
theorem ofJar_of_none (levels : Nat) (path : String) (isRoot : Bool)
    (hbytes : OpenJar.ofBytes? bytes = none) :
    ∃ error, ofJar levels path isRoot bytes = .error error := by
  cases hlisted : ofJar levels path isRoot bytes with
  | error error => exact ⟨error, rfl⟩
  | ok entries =>
    unfold ofJar at hlisted
    simp only [bind_eq_ok_iff, mapError_eq_ok_iff] at hlisted
    obtain ⟨members, hmembers, items, hitems, -⟩ := hlisted
    have hjar : OpenJar.ofBytes? bytes = some ⟨bytes.toArray, items⟩ :=
      OpenJar.ofBytes?_eq_some_iff.mpr ⟨members, hmembers, hitems, rfl⟩
    cases hbytes.symm.trans hjar

/-- Listing a jar gives the class entries that its members give, followed by what listing the
nested jars gives, where there are levels below. -/
theorem ofJar_of_some (hjar : OpenJar.ofBytes? bytes = some jar) :
    ofJar levels path isRoot bytes =
      .ok (jar.items.filterMap (entryOf? path isRoot jar) ++
        match levels with
        | 0 => []
        | levels + 1 =>
          jar.items.flatMap fun item => (jar.nestedOf? item).elim [] fun found =>
            (ofJar levels (path ++ "!/" ++ found.1) false found.2).toOption.getD []) := by
  obtain ⟨members, hmembers, hitems, harchive⟩ := OpenJar.ofBytes?_eq_some_iff.mp hjar
  have hown := map_classFiles path isRoot jar
  rw [harchive] at hown
  conv_lhs => unfold ofJar
  refine bind_eq_ok_iff.mpr ⟨members, mapError_eq_ok_iff.mpr hmembers, ?_⟩
  refine bind_eq_ok_iff.mpr ⟨jar.items, mapError_eq_ok_iff.mpr hitems, ?_⟩
  simp only [hown, pure, Except.pure]
  cases levels with
  | zero => simp
  | succ levels =>
    simp only
    rw [List.filter_filter, flatMap_filter]
    refine congrArg _ (congrArg _ (List.flatMap_congr fun item _ => ?_))
    simp only [OpenJar.nestedOf?, harchive]
    cases hjarName : endsIn ".jar" item.member.name with
    | false => simp
    | true =>
      rw [isClassName_of_endsIn_jar hjarName]
      cases Zip.isFolderName item.member.name with
      | true => simp
      | false =>
        cases (item.stream bytes.toArray).read with
        | error reason => simp [Except.toOption]
        | ok content =>
          simp only [Except.toOption, Bool.not_false, Bool.and_self, if_true, Option.map_some,
            Option.elim_some]
          cases ofJar levels (path ++ "!/" ++ item.member.name) false content <;> simp

/-- Listing a jar takes the class entries at its places. -/
theorem ofJar_eq (hjar : OpenJar.ofBytes? bytes = some jar) :
    ofJar levels path isRoot bytes =
      .ok ((placesOf levels bytes).filterMap (entryAt? path isRoot bytes)) := by
  induction levels generalizing bytes jar path isRoot with
  | zero => rw [ofJar_of_some hjar, placesOf_zero hjar, filterMap_ownPlaces hjar, List.append_nil]
  | succ levels ih =>
    rw [ofJar_of_some hjar, placesOf_succ hjar, List.filterMap_append, filterMap_ownPlaces hjar,
      filterMap_belowPlaces hjar]
    refine congrArg _ (congrArg _ (List.flatMap_congr fun item _ => ?_))
    cases jar.nestedOf? item with
    | none => rfl
    | some found =>
      simp only [Option.elim_some]
      cases hinner : OpenJar.ofBytes? found.2 with
      | none =>
        obtain ⟨error, herror⟩ :=
          ofJar_of_none levels (path ++ "!/" ++ found.1) false hinner
        simp [herror, placesOf_of_none hinner, Except.toOption]
      | some inner => simp [ih hinner, Except.toOption]

end Entries

section Lists

/-- Where every choice succeeds, what is chosen stands for the choices. -/
theorem forall₂_filterMap {α β : Type} {f : α → Option β} {items : List α}
    (hchosen : ∀ item ∈ items, (f item).isSome) :
    List.Forall₂ (fun item choice => f item = some choice) items (items.filterMap f) := by
  induction items with
  | nil => exact .nil
  | cons item rest ih =>
    obtain ⟨hitem, hrest⟩ := List.forall_mem_cons.mp hchosen
    obtain ⟨choice, hchoice⟩ := Option.isSome_iff_exists.mp hitem
    rw [List.filterMap_cons_some hchoice]
    exact .cons hchoice (ih hrest)

/-- Nothing is reached through a jar that is not reached. -/
theorem jarAt?_append_of_none {jars : List Nat} (hjars : jarAt? jars bytes = none)
    (more : List Nat) : jarAt? (jars ++ more) bytes = none := by
  induction jars generalizing bytes with
  | nil =>
    cases hjar : OpenJar.ofBytes? bytes with
    | none => cases more <;> simp [jarAt?, hjar]
    | some jar => simp [jarAt?, hjar] at hjars
  | cons index rest ih =>
    cases hjar : OpenJar.ofBytes? bytes with
    | none => simp [jarAt?, hjar]
    | some jar =>
      cases hnested : jar.nestedAt? index with
      | none => simp [jarAt?, hjar, hnested]
      | some found =>
        cases hrest : jarAt? rest found.2 with
        | none => simp [jarAt?, hjar, hnested, ih hrest]
        | some inner => simp [jarAt?, hjar, hnested, hrest] at hjars

/-- An entry is found at a place exactly when there is a class entry. -/
theorem isSome_entryAt?_iff {place : Place} : (entryAt? path isRoot bytes place).isSome ↔
    ∃ entry, EntryAt path isRoot bytes place entry := by
  simp only [Option.isSome_iff_exists, entryAt?_eq_some_iff]

/-- A jar whose members can all be opened is listed down to any level. -/
theorem exists_lists_ofJar {members : List Zip.Member} (harchive : Zip.IsArchive bytes members) :
    ∃ places entries, ofJar levels path isRoot bytes = .ok entries ∧
      Lists levels path isRoot bytes places entries := by
  obtain ⟨jar, hjar⟩ := exists_ofBytes?_iff.mpr ⟨members, harchive⟩
  refine ⟨placesOf levels bytes, _, ofJar_eq hjar, ?_⟩
  have hplaces : ∀ place ∈ placesOf levels bytes, (entryAt? path isRoot bytes place).isSome :=
    fun place hplace => ((mem_placesOf_iff path isRoot).mp hplace).2
  constructor
  case entries => exact (forall₂_filterMap hplaces).imp fun _ _ => entryAt?_eq_some_iff.mp
  case ordered => exact pairwise_placesOf levels bytes
  case complete =>
    intro place
    rw [mem_placesOf_iff path isRoot, isSome_entryAt?_iff]
  case pruned =>
    rintro jars hnone place hplace ⟨more, hprefix⟩
    have hentry := hplaces place hplace
    rw [entryAt?, ← hprefix, jarAt?_append_of_none (jarAt?_eq_none_iff.mpr hnone) more] at hentry
    cases hentry

/-- What is related to the items of a list, item by item, is related to one of them. -/
theorem exists_mem_of_forall₂ {α β : Type} {R : α → β → Prop} {items : List α} {others : List β}
    (hrelated : List.Forall₂ R items others) {other : β} (hother : other ∈ others) :
    ∃ item ∈ items, R item other := by
  obtain ⟨index, hindex, rfl⟩ := List.mem_iff_getElem.mp hother
  have hitems : index < items.length := by rwa [hrelated.length_eq]
  exact ⟨items[index], List.getElem_mem hitems, hrelated.get hitems hindex⟩

/-- The listed entries are the class entries at the places that are not too far down. -/
theorem Lists.mem_iff {places : List Place} {entries : List Entry} {entry : Entry}
    (hlists : Lists levels path isRoot bytes places entries) : entry ∈ entries ↔
      ∃ place, place.jars.length ≤ levels ∧ EntryAt path isRoot bytes place entry := by
  constructor
  · intro hentry
    obtain ⟨place, hplace, hstands⟩ := exists_mem_of_forall₂ hlists.entries hentry
    exact ⟨place, ((hlists.complete place).mp hplace).1, hstands⟩
  · rintro ⟨place, hlevel, hstands⟩
    have hplace := (hlists.complete place).mpr ⟨hlevel, entry, hstands⟩
    obtain ⟨other, hother, hstands'⟩ := exists_mem_of_forall₂ hlists.entries.flip hplace
    rwa [hstands.unique hstands']

/-- A jar at a path is listed from its bytes. -/
theorem inJar_of_read {fs : FileSystem} (hread : fs.read path = .ok bytes) :
    inJar fs path isRoot = ofJar maxNesting path isRoot bytes := by
  simp only [inJar, hread]

/-- Of a jar whose members can all be opened the class entries are listed that stand in the jar
itself or in the jars nested in it, two levels down at most: each of them once, in the order of
the places, with the content and the container of its place. -/
theorem inJar_lists {fs : FileSystem} {members : List Zip.Member}
    (hread : fs.read path = .ok bytes) (harchive : Zip.IsArchive bytes members) :
    ∃ places entries, inJar fs path isRoot = .ok entries ∧
      Lists 2 path isRoot bytes places entries := by
  rw [inJar_of_read hread]
  exact exists_lists_ofJar harchive

end Lists

section Packed

variable {path : String} {isRoot : Bool} {parts : List Zip.Packing.Part} {index : Nat}
  {part : Zip.Packing.Part} {place : Place} {entry : Entry}

/-- A class file that is packed in a jar is a class entry of it. -/
theorem entryAt_packed (hfits : Zip.Packing.Fits parts) (hpart : parts[index]? = some part)
    (hname : NamesClass part.name) :
    EntryAt path isRoot (Zip.Packing.archive parts) ⟨[], index⟩
      ⟨part.name, isRoot, some path, .content part.content⟩ := by
  obtain ⟨members, member, harchive, hmember, hsame, hgives⟩ :=
    Zip.Packing.exists_member_of_archive hfits hpart
  rw [← hsame] at hname ⊢
  exact .own harchive hmember hname hgives

/-- A class entry of a jar that is packed in another jar is one of the other jar too. -/
theorem entryAt_under_packed (hfits : Zip.Packing.Fits parts) (hpart : parts[index]? = some part)
    (hname : NamesJar part.name)
    (hentry : EntryAt (path ++ "!/" ++ part.name) false part.content place entry) :
    EntryAt path isRoot (Zip.Packing.archive parts) ⟨index :: place.jars, place.index⟩ entry := by
  obtain ⟨members, member, harchive, hmember, hsame, hgives⟩ :=
    Zip.Packing.exists_member_of_archive hfits hpart
  rw [← hsame] at hname hentry
  exact .under harchive hmember hname hgives hentry

/-- The members of a jar with a class file. -/
def innerParts : List Zip.Packing.Part := [.stored "B.class" [2]]

/-- The members of a jar with a compressed class file, with a compressed jar and with an empty file
that has the name of a jar. -/
def mixedParts : List Zip.Packing.Part :=
  [.deflated "A.class" [1] [0x63, 0x04, 0x00] (by decide +kernel),
    .deflated "lib/b.jar" (Zip.Packing.archive innerParts)
      (Zip.Packing.storedBlocks (Zip.Packing.archive innerParts) [])
      (Zip.Inflate.inflate_storedBlocks nofun (by decide +kernel)),
    .stored "c.jar" []]

/-- A jar with a class file, with a jar and with an empty file that has the name of a jar. -/
def mixedJar : Bytes := Zip.Packing.archive mixedParts

/-- The class of the jar and that of the jar in it are listed, and nothing is from the file that
only has the name of a jar. -/
theorem inJar_lists_mixedJar :
    ∃ (fs : FileSystem) (members : List Zip.Member) (places : List Place) (entries : List Entry),
      fs.read "a.jar" = .ok mixedJar ∧ Zip.IsArchive mixedJar members ∧
      inJar fs "a.jar" true = .ok entries ∧ Lists 2 "a.jar" true mixedJar places entries ∧
      ⟨"A.class", true, some "a.jar", .content [1]⟩ ∈ entries ∧
      ⟨"B.class", false, some "a.jar!/lib/b.jar", .content [2]⟩ ∈ entries ∧
      ∀ index, ⟨[2], index⟩ ∉ places := by
  have hread : (FileSystem.mk (.folder [("a.jar", .file mixedJar)]) []).read "a.jar" =
      .ok mixedJar :=
    FileSystem.read_of_isName (by constructor <;> decide) rfl
  have hinner : Zip.Packing.Fits innerParts := by constructor <;> decide +kernel
  have hmixed : Zip.Packing.Fits mixedParts := by constructor <;> decide +kernel
  have hfirst : mixedParts[0]? = some (.deflated "A.class" [1] [0x63, 0x04, 0x00] _) := rfl
  have hsecond : mixedParts[1]? =
      some (.deflated "lib/b.jar" (Zip.Packing.archive innerParts) _ _) := rfl
  have hfirstInner : innerParts[0]? = some (.stored "B.class" [2]) := rfl
  have hown : EntryAt "a.jar" true mixedJar ⟨[], 0⟩
      ⟨"A.class", true, some "a.jar", .content [1]⟩ :=
    entryAt_packed hmixed hfirst (isClassName_iff.mp (by decide))
  have hbelow : EntryAt ("a.jar" ++ "!/" ++ "lib/b.jar") false (Zip.Packing.archive innerParts)
      ⟨[], 0⟩ ⟨"B.class", false, some "a.jar!/lib/b.jar", .content [2]⟩ :=
    entryAt_packed hinner hfirstInner (isClassName_iff.mp (by decide))
  have hnested : EntryAt "a.jar" true mixedJar ⟨[1], 0⟩
      ⟨"B.class", false, some "a.jar!/lib/b.jar", .content [2]⟩ :=
    entryAt_under_packed hmixed hsecond ⟨"lib/b", rfl⟩ hbelow
  have hthird : mixedParts[2]? = some (.stored "c.jar" []) := rfl
  obtain ⟨members, member, harchive, hmember, -, hgives⟩ :=
    Zip.Packing.exists_member_of_archive hmixed hthird
  obtain ⟨places, entries, hlisted, hlists⟩ := inJar_lists hread harchive
  refine ⟨_, members, places, entries, hread, harchive, hlisted, hlists,
    hlists.mem_iff.mpr ⟨_, by decide, hown⟩, hlists.mem_iff.mpr ⟨_, by decide, hnested⟩,
    fun index hplace => hlists.pruned [2] ?_ _ hplace (List.prefix_refl [2])⟩
  intro names inner found hreaches hempty
  cases hreaches with
  | down harchive' hmember' _ hcontent hrest =>
    cases hrest
    cases harchive.unique harchive'
    obtain rfl := Option.some.inj (hmember.symm.trans hmember')
    cases hgives.unique hcontent
    cases hempty.directory

end Packed

end Listing

end JarCensus
