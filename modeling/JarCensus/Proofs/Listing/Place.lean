import JarCensus.Listing.Place
import JarCensus.Proofs.FileSystem.Path
import JarCensus.Proofs.Success
import JarCensus.Proofs.Zip.Content

/-!
# What stands at the places of a jar

What is looked up in the jars on the way down is what they hold: the look-ups find the members
that can be opened, the nested jars that can be read, and the class entry of each place.
-/

namespace JarCensus

/-- Bytes are those of a jar exactly when its directory can be read and its members can all be
opened. -/
theorem OpenJar.ofBytes?_eq_some_iff {bytes : Bytes} {jar : OpenJar} :
    ofBytes? bytes = some jar ↔
    ∃ members, Zip.members bytes = .ok members ∧
      members.mapM (Zip.Item.find bytes.toArray) = .ok jar.items ∧
      jar.archive = bytes.toArray := by
  obtain ⟨archive, items⟩ := jar
  unfold ofBytes?
  cases Zip.members bytes with
  | error => simp [Except.toOption]
  | ok members =>
    cases hitems : members.mapM (Zip.Item.find bytes.toArray) with
    | error => simp [Except.toOption, hitems]
    | ok found => simp [Except.toOption, hitems, eq_comm, and_comm]

namespace Listing

section Names

variable {name last ending : String}

/-- Behind the last slash of some characters stand the last ones of their parts. -/
theorem getLastD_splitOn {front back : List Char} (hback : '/' ∉ back) :
    ((front ++ '/' :: back).splitOn '/').getLastD [] = back := by
  rw [List.splitOn_append_cons_self, List.splitOn_eq_singleton hback]
  simp

/-- The name after the last slash is what stands there. -/
theorem lastName_eq_iff : lastName name = last ↔ IsLastPart last name := by
  have hnoSlash : '/' ∉ name.toList → lastName name = name := by
    intro hslash
    rw [lastName, Text.splitAt_eq_splitOn, List.splitOn_eq_singleton hslash]
    simp
  have hslash : ∀ front back, name.toList = front ++ '/' :: back → '/' ∉ back →
      lastName name = String.ofList back := by
    intro front back hsplit hback
    rw [lastName, Text.splitAt_eq_splitOn, hsplit, getLastD_splitOn hback]
  constructor
  · rintro rfl
    by_cases hmem : '/' ∈ name.toList
    · obtain ⟨back, front, hsplit, hback⟩ :=
        List.eq_append_cons_of_mem (List.mem_reverse.mpr hmem)
      have hname : name.toList = front.reverse ++ '/' :: back.reverse := by
        rw [← List.reverse_reverse name.toList, hsplit]
        simp
      rw [hslash _ _ hname (by simpa using hback)]
      refine ⟨by simpa using hback, .inr ⟨String.ofList front.reverse, ?_⟩⟩
      rw [← String.toList_inj, hname]
      simp
    · rw [hnoSlash hmem]
      exact ⟨hmem, .inl rfl⟩
  · rintro ⟨hback, rfl | ⟨front, rfl⟩⟩
    · exact hnoSlash hback
    · rw [hslash front.toList last.toList (by simp) hback, String.ofList_toList]

/-- A name ends in a text exactly when the text stands behind something in it. -/
theorem endsIn_iff : endsIn ending name = true ↔ ∃ front, name = front ++ ending := by
  rw [endsIn, List.isSuffixOf_iff_suffix]
  constructor
  · rintro ⟨front, hfront⟩
    exact ⟨String.ofList front, by rw [← String.toList_inj]; simp [hfront]⟩
  · rintro ⟨front, rfl⟩
    exact ⟨front.toList, by simp⟩

/-- A name is one of a class file exactly when it is taken for one. -/
theorem isClassName_iff : isClassName name = true ↔ NamesClass name := by
  unfold isClassName
  simp only [Bool.and_eq_true, bne_iff_ne, ne_eq, endsIn_iff, lastName_eq_iff]
  constructor
  · rintro ⟨⟨hending, hmodule⟩, hpackage⟩
    exact ⟨hending, hmodule, hpackage⟩
  · rintro ⟨hending, hmodule, hpackage⟩
    exact ⟨⟨hending, hmodule⟩, hpackage⟩

/-- A name that ends in another character than a slash is not that of a folder. -/
theorem isFolderName_eq_false {front : String} {c : Char} (hlast : ending.toList.getLast? = some c)
    (hslash : c ≠ '/') (hbackslash : c ≠ '\\') : Zip.isFolderName (front ++ ending) = false := by
  have hends : (front ++ ending).toList.getLast? = some c := by
    simp [List.getLast?_append, hlast]
  unfold Zip.isFolderName
  simp only [hends]
  simp [hslash, hbackslash]

/-- A class file is not a folder. -/
theorem NamesClass.isFolderName (hname : NamesClass name) : Zip.isFolderName name = false := by
  obtain ⟨front, rfl⟩ := hname.ending
  exact isFolderName_eq_false (c := 's') (by decide) (by decide) (by decide)

/-- Neither is a jar. -/
theorem NamesJar.isFolderName (hname : NamesJar name) : Zip.isFolderName name = false := by
  obtain ⟨front, rfl⟩ := hname
  exact isFolderName_eq_false (c := 'r') (by decide) (by decide) (by decide)

end Names

section Jars

variable {bytes content inner : Bytes} {members : List Zip.Member} {jar : OpenJar}
  {item : Zip.Item} {index : Nat} {name path : String} {isRoot : Bool} {stream : Stream}
  {jars : List Nat} {names : List String} {place : Place} {entry : Entry}

/-- A jar can be opened exactly when its bytes are those of an archive whose members can all be
opened. -/
theorem exists_ofBytes?_iff :
    (∃ jar, OpenJar.ofBytes? bytes = some jar) ↔ ∃ members, Zip.IsArchive bytes members := by
  simp only [OpenJar.ofBytes?_eq_some_iff]
  constructor
  · rintro ⟨jar, members, hmembers, hitems, -⟩
    refine ⟨members, hmembers, fun member hmember => Zip.exists_find_iff.mp ?_⟩
    exact mapM_isOk_iff.mp ⟨_, hitems⟩ member hmember
  · rintro ⟨members, hmembers, hopens⟩
    obtain ⟨items, hitems⟩ := mapM_isOk_iff.mpr fun member hmember =>
      Zip.exists_find_iff.mpr (hopens member hmember)
    exact ⟨⟨bytes.toArray, items⟩, members, hmembers, hitems, rfl⟩

/-- The items of an opened jar are its members, opened. -/
theorem getElem?_items_iff (hjar : OpenJar.ofBytes? bytes = some jar)
    (harchive : Zip.IsArchive bytes members) : jar.items[index]? = some item ↔
      ∃ member, members[index]? = some member ∧ Zip.Item.find bytes.toArray member = .ok item := by
  obtain ⟨members', hmembers', hitems, -⟩ := OpenJar.ofBytes?_eq_some_iff.mp hjar
  cases hmembers'.symm.trans harchive.directory
  have hposition := congrArg (·[index]?) (mapM_eq_ok_iff.mp hitems)
  simp only [List.getElem?_map] at hposition
  cases hmember : members[index]? with
  | none =>
    rw [hmember, Option.map_none, eq_comm, Option.map_eq_none_iff] at hposition
    simp [hposition]
  | some member =>
    rw [hmember, Option.map_some, eq_comm, Option.map_eq_some_iff] at hposition
    obtain ⟨found, hfound, hopened⟩ := hposition
    simp [hfound, ← hopened]

/-- All of a stream is read exactly when it gives its bytes. -/
theorem read_eq_ok_iff : stream.read = .ok content ↔ stream = .content content := by
  cases stream <;> simp [Stream.read]

/-- The nested jar at a position is the content of a member with the name of a jar. -/
theorem nestedAt?_eq_some_iff (hjar : OpenJar.ofBytes? bytes = some jar)
    (harchive : Zip.IsArchive bytes members) : jar.nestedAt? index = some (name, content) ↔
      ∃ member, members[index]? = some member ∧ NamesJar member.name ∧ member.name = name ∧
        member.Gives bytes (.content content) := by
  obtain ⟨-, -, -, hbytes⟩ := OpenJar.ofBytes?_eq_some_iff.mp hjar
  have hnested : ∀ item member, Zip.Item.find bytes.toArray member = .ok item →
      (jar.nestedOf? item = some (name, content) ↔ NamesJar member.name ∧ member.name = name ∧
        member.Gives bytes (.content content)) := by
    intro item member hfind
    obtain ⟨-, rfl, -, -⟩ := Zip.find_eq_ok_iff.mp hfind
    rw [Zip.gives_iff hfind, OpenJar.nestedOf?, hbytes]
    by_cases hname : NamesJar item.member.name
    · have hending : endsIn ".jar" item.member.name = true := endsIn_iff.mpr hname
      simp [hname, hname.isFolderName, hending, toOption_eq_some_iff, read_eq_ok_iff, and_comm]
    · have hending : endsIn ".jar" item.member.name = false := by
        rw [Bool.eq_false_iff]
        exact fun hends => hname (endsIn_iff.mp hends)
      simp [hname, hending]
  rw [OpenJar.nestedAt?, Option.bind_eq_some_iff]
  simp only [getElem?_items_iff hjar harchive]
  constructor
  · rintro ⟨item, ⟨member, hmember, hfind⟩, hitem⟩
    exact ⟨member, hmember, (hnested item member hfind).mp hitem⟩
  · rintro ⟨member, hmember, hgives⟩
    obtain ⟨item, hfind⟩ := Zip.exists_find_iff.mpr
      (harchive.opens member (List.mem_of_getElem? hmember))
    exact ⟨item, ⟨member, hmember, hfind⟩, (hnested item member hfind).mpr hgives⟩

/-- The class at a position is what a member with the name of a class file holds. -/
theorem classAt?_eq_some_iff (hjar : OpenJar.ofBytes? bytes = some jar)
    (harchive : Zip.IsArchive bytes members) : jar.classAt? index = some (name, stream) ↔
      ∃ member, members[index]? = some member ∧ NamesClass member.name ∧ member.name = name ∧
        member.Gives bytes stream := by
  obtain ⟨-, -, -, hbytes⟩ := OpenJar.ofBytes?_eq_some_iff.mp hjar
  have hclass : ∀ item member, Zip.Item.find bytes.toArray member = .ok item →
      (jar.classOf? item = some (name, stream) ↔ NamesClass member.name ∧ member.name = name ∧
        member.Gives bytes stream) := by
    intro item member hfind
    obtain ⟨-, rfl, -, -⟩ := Zip.find_eq_ok_iff.mp hfind
    rw [Zip.gives_iff hfind, OpenJar.classOf?, hbytes]
    by_cases hname : NamesClass item.member.name
    · simp [hname, hname.isFolderName, isClassName_iff.mpr hname]
    · have hclassName : isClassName item.member.name = false := by
        rw [Bool.eq_false_iff]
        exact fun hclass => hname (isClassName_iff.mp hclass)
      simp [hname, hclassName]
  rw [OpenJar.classAt?, Option.bind_eq_some_iff]
  simp only [getElem?_items_iff hjar harchive]
  constructor
  · rintro ⟨item, ⟨member, hmember, hfind⟩, hitem⟩
    exact ⟨member, hmember, (hclass item member hfind).mp hitem⟩
  · rintro ⟨member, hmember, hgives⟩
    obtain ⟨item, hfind⟩ := Zip.exists_find_iff.mpr
      (harchive.opens member (List.mem_of_getElem? hmember))
    exact ⟨item, ⟨member, hmember, hfind⟩, (hclass item member hfind).mpr hgives⟩

/-- The look-up of a jar finds the one that the way down leads to. -/
theorem jarAt?_eq_some_iff : jarAt? jars bytes = some (names, jar) ↔
    ∃ inner, Reaches bytes jars names inner ∧ OpenJar.ofBytes? inner = some jar := by
  induction jars generalizing bytes names with
  | nil =>
    simp only [jarAt?, bind, Option.bind_eq_some_iff, pure, Option.some.injEq, Prod.mk.injEq]
    constructor
    · rintro ⟨found, hfound, rfl, rfl⟩
      exact ⟨bytes, .here, hfound⟩
    · rintro ⟨inner, ⟨⟩, hinner⟩
      exact ⟨jar, hinner, rfl, rfl⟩
  | cons index rest ih =>
    simp only [jarAt?, bind, Option.bind_eq_some_iff, pure, Option.some.injEq, Prod.mk.injEq,
      Prod.exists]
    constructor
    · rintro ⟨outer, houter, name, content, hnested, names, found, hrest, rfl, rfl⟩
      obtain ⟨members, harchive⟩ := exists_ofBytes?_iff.mp ⟨outer, houter⟩
      obtain ⟨member, hmember, hname, rfl, hcontent⟩ :=
        (nestedAt?_eq_some_iff houter harchive).mp hnested
      obtain ⟨inner, hreaches, hinner⟩ := ih.mp hrest
      exact ⟨inner, .down harchive hmember hname hcontent hreaches, hinner⟩
    · rintro ⟨inner, hreaches, hinner⟩
      cases hreaches with
      | down harchive hmember hname hcontent hreaches =>
        obtain ⟨outer, houter⟩ := exists_ofBytes?_iff.mpr ⟨_, harchive⟩
        exact ⟨outer, houter, _, _,
          (nestedAt?_eq_some_iff houter harchive).mpr ⟨_, hmember, hname, rfl, hcontent⟩,
          _, jar, ih.mpr ⟨inner, hreaches, hinner⟩, rfl, rfl⟩

/-- The look-up of an entry finds the class entry at the place. -/
theorem entryAt?_eq_some_iff :
    entryAt? path isRoot bytes place = some entry ↔ EntryAt path isRoot bytes place entry := by
  obtain ⟨jars, index⟩ := place
  simp only [entryAt?, bind, Option.bind_eq_some_iff, pure, Option.some.injEq, Prod.exists,
    jarAt?_eq_some_iff]
  constructor
  · rintro ⟨names, jar, ⟨inner, hreaches, hjar⟩, name, stream, hclass, rfl⟩
    obtain ⟨members, harchive⟩ := exists_ofBytes?_iff.mp ⟨jar, hjar⟩
    obtain ⟨member, hmember, hname, rfl, hgives⟩ :=
      (classAt?_eq_some_iff hjar harchive).mp hclass
    exact .intro hreaches harchive hmember hname hgives
  · rintro ⟨hreaches, harchive, hmember, hname, hgives⟩
    obtain ⟨jar, hjar⟩ := exists_ofBytes?_iff.mpr ⟨_, harchive⟩
    exact ⟨_, jar, ⟨_, hreaches, hjar⟩, _, _,
      (classAt?_eq_some_iff hjar harchive).mpr ⟨_, hmember, hname, rfl, hgives⟩, rfl⟩

/-- There is one class entry at a place. -/
theorem EntryAt.unique {other : Entry} (hentry : EntryAt path isRoot bytes place entry)
    (hother : EntryAt path isRoot bytes place other) : entry = other :=
  Option.some.inj
    ((entryAt?_eq_some_iff.mpr hentry).symm.trans (entryAt?_eq_some_iff.mpr hother))

/-- The class entry of a jar itself is that of a member with the name of a class file. -/
theorem EntryAt.own {member : Zip.Member} (harchive : Zip.IsArchive bytes members)
    (hmember : members[index]? = some member) (hname : NamesClass member.name)
    (hgives : member.Gives bytes stream) :
    EntryAt path isRoot bytes ⟨[], index⟩ ⟨member.name, isRoot, some path, stream⟩ := by
  have hentry : EntryAt path isRoot bytes ⟨[], index⟩
      ⟨member.name, isRoot && ([] : List Nat).isEmpty, some (containerName path []), stream⟩ :=
    .intro .here harchive hmember hname hgives
  simpa [containerName] using hentry

/-- The class entries of a nested jar are those of the jar around it, below the nested one. -/
theorem EntryAt.under {member : Zip.Member} (harchive : Zip.IsArchive bytes members)
    (hmember : members[index]? = some member) (hname : NamesJar member.name)
    (hcontent : member.Gives bytes (.content content))
    (hentry : EntryAt (path ++ "!/" ++ member.name) false content place entry) :
    EntryAt path isRoot bytes ⟨index :: place.jars, place.index⟩ entry := by
  obtain ⟨hreaches, hinner, hclass, hclassName, hgives⟩ := hentry
  have hdown : EntryAt path isRoot bytes _ _ :=
    .intro (.down harchive hmember hname hcontent hreaches) hinner hclass hclassName hgives
  simpa [containerName] using hdown

/-- No jar is looked up exactly when the way down leads to none. -/
theorem jarAt?_eq_none_iff : jarAt? jars bytes = none ↔
    ∀ names inner members, Reaches bytes jars names inner → ¬ Zip.IsArchive inner members := by
  rw [Option.eq_none_iff_forall_ne_some]
  constructor
  · intro hnone names inner members hreaches harchive
    obtain ⟨jar, hjar⟩ := exists_ofBytes?_iff.mpr ⟨members, harchive⟩
    exact hnone (names, jar) (jarAt?_eq_some_iff.mpr ⟨inner, hreaches, hjar⟩)
  · rintro hnone ⟨names, jar⟩ hfound
    obtain ⟨inner, hreaches, hjar⟩ := jarAt?_eq_some_iff.mp hfound
    obtain ⟨members, harchive⟩ := exists_ofBytes?_iff.mp ⟨jar, hjar⟩
    exact hnone names inner members hreaches harchive

end Jars

end Listing

end JarCensus
