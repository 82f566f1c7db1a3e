import Mathlib.Data.List.Sort
import Mathlib.Data.String.Basic
import JarCensus.Proofs.FileSystem.Name

/-!
# Paths below a folder

The path of a name in a folder says what the path of the folder says, and then the name. So the
parts of a path below a folder are those of the folder followed by the names on the way. Sorted
paths stand in the order of their parts, and there is only one such order when no two have the same
parts.
-/

namespace JarCensus

/-- Splitting at a separator is the splitting of the library. -/
theorem Text.splitAt_eq_splitOn {α : Type} [DecidableEq α] (separator : α) (whole : List α) :
    Text.splitAt separator whole = whole.splitOn separator := by
  induction whole with
  | nil => rfl
  | cons c rest ih =>
    rw [Text.splitAt, ih, List.splitOn_cons_eq_if_modifyHead]
    cases hparts : rest.splitOn separator with
    | nil => exact absurd hparts (List.splitOn_ne_nil separator rest)
    | cons first others => by_cases hc : c = separator <;> simp [hc]

namespace Path

variable {folder name : String} {names : List String}

/-- The segments of a path are its parts between the slashes. -/
theorem segments_eq (path : String) :
    segments path = (path.toList.splitOn '/').map String.ofList := by
  rw [segments, Text.splitAt_eq_splitOn]

/-- A path with a slash in it is split there. -/
theorem segments_of_toList {path : String} {front back : List Char}
    (hpath : path.toList = front ++ '/' :: back) :
    segments path = (front.splitOn '/').map String.ofList ++ segments (String.ofList back) := by
  rw [segments_eq, hpath, List.splitOn_append_cons_self, List.map_append, segments_eq,
    String.toList_ofList]

/-- A path that is one segment has no slash. -/
theorem slash_not_mem (halone : segments name = [name]) : '/' ∉ name.toList := by
  intro hslash
  obtain ⟨front, back, hsplit⟩ := List.append_of_mem hslash
  have hlength := congrArg List.length (halone.symm.trans (segments_of_toList hsplit))
  have hfront : front.splitOn '/' ≠ [] := List.splitOn_ne_nil _ _
  have hback : segments (String.ofList back) ≠ [] := by
    rw [segments_eq]
    simp
  rw [List.length_append, List.length_map, List.length_singleton] at hlength
  have := List.length_pos_iff.mpr hfront
  have := List.length_pos_iff.mpr hback
  omega

/-- Names with slashes between them are the segments of what they make up. -/
theorem segments_intercalate (hnames : ∀ name ∈ names, segments name = [name])
    (hne : names ≠ []) : segments ("/".intercalate names) = names := by
  have hslash : ∀ part ∈ names.map String.toList, '/' ∉ part := by
    intro part hpart
    obtain ⟨name, hname, rfl⟩ := List.mem_map.mp hpart
    exact slash_not_mem (hnames name hname)
  have hsplit : (("/".intercalate names).toList).splitOn '/' = names.map String.toList := by
    rw [String.toList_intercalate]
    exact List.splitOn_intercalate '/' hslash (by simpa using hne)
  rw [segments_eq, hsplit, List.map_map]
  simp [Function.comp_def]

/-- The path of a name in a folder goes through the segments of the folder, up to a slash at
their end, and then to the name. -/
theorem exists_segments_join (hfolder : folder ≠ "") (halone : segments name = [name]) :
    ∃ above, above ≠ [] ∧ segments (join folder name) = above ++ [name] ∧
      (segments folder = above ∨ segments folder = above ++ [""]) := by
  have hback : segments (String.ofList name.toList) = [name] := by
    rw [String.ofList_toList, halone]
  unfold join
  split
  · rename_i hlast
    exact absurd (String.toList_eq_nil_iff.mp (List.getLast?_eq_none_iff.mp hlast)) hfolder
  · rename_i hlast
    obtain ⟨front, hfront⟩ := List.getLast?_eq_some_iff.mp hlast
    refine ⟨(front.splitOn '/').map String.ofList, by simp, ?_, .inr ?_⟩
    · have hjoined : (folder ++ name).toList = front ++ '/' :: name.toList := by
        simp [hfront]
      rw [segments_of_toList hjoined, hback]
    · rw [segments_of_toList hfront]
      rfl
  · refine ⟨segments folder, by simp [segments_eq], ?_, .inl rfl⟩
    have hjoined : (folder ++ "/" ++ name).toList = folder.toList ++ '/' :: name.toList := by
      simp
    rw [segments_of_toList hjoined, hback, ← segments_eq]

/-- The parts of the path of a name in a folder are those of the folder and the name. -/
theorem parts_join (hfolder : folder ≠ "") (hname : FileSystem.IsName name) :
    parts (join folder name) = parts folder ++ [name] := by
  obtain ⟨above, habove, hjoined, hsegments⟩ := exists_segments_join hfolder hname.alone
  obtain ⟨first, rest, rfl⟩ := List.exists_cons_of_ne_nil habove
  have hkept : (rest ++ [name]).filter (!isIdle ·) = rest.filter (!isIdle ·) ++ [name] := by
    simp [hname.tells]
  rcases hsegments with hsegments | hsegments
  · simp only [parts, hjoined, hsegments, List.cons_append, hkept]
    split <;> rfl
  · have hslash : (rest ++ [""]).filter (!isIdle ·) = rest.filter (!isIdle ·) := by
      simp [isIdle]
    simp only [parts, hjoined, hsegments, List.cons_append, hkept, hslash]
    split <;> rfl

/-- The path of a name in a folder is not empty. -/
theorem join_ne_empty (hname : name ≠ "") : join folder name ≠ "" := by
  unfold join
  split
  · exact hname
  · simp [hname]
  · simp

/-- The path of a name in a folder is longer than both by a slash at most. -/
theorem utf8ByteSize_join_le (folder name : String) :
    (join folder name).utf8ByteSize ≤ folder.utf8ByteSize + 1 + name.utf8ByteSize := by
  have hslash : "/".utf8ByteSize = 1 := by decide
  unfold join
  split
  · omega
  · rw [String.utf8ByteSize_append]
    omega
  · rw [String.utf8ByteSize_append, String.utf8ByteSize_append, hslash]

/-- The parts of a path below a folder are those of the folder and the names on the way. -/
theorem parts_foldl_join (hfolder : folder ≠ "")
    (hnames : ∀ name ∈ names, FileSystem.IsName name) :
    parts (names.foldl join folder) = parts folder ++ names := by
  induction names generalizing folder with
  | nil => simp
  | cons name rest ih =>
    obtain ⟨hname, hrest⟩ := List.forall_mem_cons.mp hnames
    rw [List.foldl_cons, ih (join_ne_empty (by simpa using hname.given)) hrest,
      parts_join hfolder hname, List.append_assoc, List.singleton_append]

/-- The path of a name in a folder starts where the path of the folder does. -/
theorem isAbsolute_join (hfolder : folder ≠ "") :
    isAbsolute (join folder name) = isAbsolute folder := by
  have hhead : ∀ rest : List Char, (folder.toList ++ rest).head? = folder.toList.head? := by
    intro rest
    cases hchars : folder.toList with
    | nil => exact absurd (String.toList_eq_nil_iff.mp hchars) hfolder
    | cons c chars => rfl
  unfold join
  split
  · rename_i hlast
    exact absurd (String.toList_eq_nil_iff.mp (List.getLast?_eq_none_iff.mp hlast)) hfolder
  · simp [isAbsolute, hhead]
  · simp only [isAbsolute, String.toList_append, List.append_assoc, hhead]

/-- The characters of the path of a name in a folder are those of both and the slash. -/
theorem mem_join {c : Char} (hmem : c ∈ (join folder name).toList) :
    c ∈ folder.toList ∨ c = '/' ∨ c ∈ name.toList := by
  unfold join at hmem
  split at hmem
  · exact .inr (.inr hmem)
  · simp only [String.toList_append, List.mem_append] at hmem
    rcases hmem with hmem | hmem
    · exact .inl hmem
    · exact .inr (.inr hmem)
  · simpa [or_assoc] using hmem

section Order

variable {paths others : List String}

/-- A path comes before or at another when its parts do. -/
theorem partsLE_iff {x y : String} : partsLE x y = true ↔ parts x ≤ parts y := by
  simp [partsLE]

/-- The order by parts is transitive. -/
theorem partsLE_trans (x y z : String) (hxy : partsLE x y = true) (hyz : partsLE y z = true) :
    partsLE x z = true :=
  partsLE_iff.mpr (le_trans (partsLE_iff.mp hxy) (partsLE_iff.mp hyz))

/-- Any two paths are in order by parts one way or the other. -/
theorem partsLE_total (x y : String) : (partsLE x y || partsLE y x) = true := by
  simpa [partsLE_iff] using le_total (parts x) (parts y)

/-- Paths come to stand in the order of their parts. -/
theorem pairwise_mergeSort (paths : List String) :
    (paths.mergeSort partsLE).Pairwise (parts · ≤ parts ·) := by
  simpa only [partsLE_iff] using List.pairwise_mergeSort partsLE_trans partsLE_total paths

/-- Paths with parts of their own have only one order by parts, in which these increase. -/
theorem pairwise_lt_mergeSort (hdistinct : (paths.map parts).Nodup) :
    (paths.mergeSort partsLE).Pairwise (parts · < parts ·) := by
  have hsorted : ((paths.mergeSort partsLE).map parts).Nodup :=
    ((List.mergeSort_perm paths partsLE).map parts).nodup_iff.mpr hdistinct
  exact (pairwise_mergeSort paths).imp₂ (fun x y hle hne => lt_of_le_of_ne hle hne)
    (List.pairwise_map.mp hsorted)

/-- The order in which paths with parts of their own come does not show once they are sorted. -/
theorem mergeSort_eq_of_perm (hdistinct : (paths.map parts).Nodup) (hperm : others.Perm paths) :
    others.mergeSort partsLE = paths.mergeSort partsLE := by
  refine List.Perm.eq_of_pairwise ?_ (pairwise_mergeSort others) (pairwise_mergeSort paths)
    ((List.mergeSort_perm others partsLE).trans
      (hperm.trans (List.mergeSort_perm paths partsLE).symm))
  intro x y hx hy hxy hyx
  have hmem := hperm.mem_iff.mp (List.mem_mergeSort.mp hx)
  exact List.inj_on_of_nodup_map hdistinct hmem (List.mem_mergeSort.mp hy) (le_antisymm hxy hyx)

end Order

end Path

end JarCensus
