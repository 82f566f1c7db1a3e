import JarCensus.Proofs.ClassFile.CheckedText
import JarCensus.Proofs.ClassFile.Confinement
import JarCensus.Proofs.ClassFile.Numbering

/-!
# Reading stays in its bounds

The checked reading of class files follows the reading over cursors part by part, so it ends
with the same outcome and meets no breach, and everything that it records on the way is sound.
This holds of all bytes that a machine of 64 bits can address.
-/

namespace JarCensus.ClassFile

open Checked

variable {bytes : Bytes}

/-! ## Constant pools -/

namespace ConstantPool

/-- Whether the length of every text in a pool fits its word. -/
def TextsFit (pool : ConstantPool) : Prop :=
  ∀ index text, pool.utf8 index = .ok text → text.length < 65536

/-- The texts of well-formed constants fit. -/
theorem textsFit_ofConstants {constants : List Constant}
    (hformed : ∀ constant ∈ constants, constant.WellFormed) :
    (ofConstants constants).TextsFit := by
  intro index text htext
  have hheld : (ofConstants constants).slots[index.toNat]? = some (.utf8 text) ↔
      StartsAt constants index.toNat (.utf8 text) :=
    getElem?_ofConstants_eq_some_iff nofun nofun Constant.slots_eq_utf8_iff
  obtain ⟨before, after, rfl, -⟩ := hheld.mp (utf8_eq_ok_iff.mp htext)
  exact hformed (.utf8 text) (by simp)

/-- A slot that holds no text is a fault that needs nothing on record. -/
theorem shownIn_of_utf8 {pool : ConstantPool} {index : UInt16} {fault : Fault}
    (h : pool.utf8 index = .error fault) (record : List Event) : fault.ShownIn record := by
  unfold utf8 at h
  split at h
  · cases h
  · obtain rfl := Except.error.inj h
    trivial

end ConstantPool

/-- What comes after the text of a slot is looked up and decoded follows what comes after it is
looked up, when it does so for the characters of every text. -/
theorem follows_text {α : Type} {pool : ConstantPool} (hfit : pool.TextsFit) (index : UInt16)
    {next : List Char → Checked α} {rest : Bytes → Reader α}
    (hnext : ∀ text, Follows bytes (next (Text.ModifiedUtf8.decode text)) (rest text)) :
    Follows bytes (found (pool.utf8 index) >>= fun text => decode text >>= next)
      (liftM (pool.utf8 index) >>= rest) := by
  refine follows_found (fun fault hfault => ?_) fun text htext => ?_
  · exact ⟨pool.within_of_utf8 hfault 0 bytes.length, ConstantPool.shownIn_of_utf8 hfault⟩
  · rw [decode_eq (hfit index text htext), pure_bind]
    exact hnext text

/-- What follows the tag of a constant is read as by the reader. -/
theorem follows_readBody (kind : ConstantKind) :
    Follows bytes (Checked.readBody kind) (ConstantPool.readBody kind) := by
  cases kind with
  | utf8 => exact follows_word16.bind fun length => (follows_take length.toNat).bind fun _ =>
      follows_pure _
  | classRef => exact follows_word16.bind fun _ => follows_pure _
  | _ => exact (follows_pass _).bind fun _ => follows_pure _

/-- Slots are filled as by the reader. The number of the next slot and the count of slots make up
the room that is left. -/
theorem follows_fill {count : Nat} (hcount : count < 65536) (room : Nat) {index : Nat}
    {pool : ConstantPool} (hindex : index = pool.slots.size) (hroom : room = count - index) :
    Follows bytes (Checked.fill count index pool) (ConstantPool.fill room pool) := by
  induction room using Nat.strongRecOn generalizing index pool with
  | ind room ih =>
    cases room with
    | zero =>
      rw [Checked.fill, if_neg (by omega)]
      exact follows_pure pool
    | succ room =>
      have hslot : index < 65536 := by omega
      have hnext : index + 1 < end32 := by
        rw [end32]
        omega
      rw [Checked.fill, if_pos (by omega), ConstantPool.fill, ← hindex]
      refine follows_byte.bind fun tag => ?_
      cases ConstantKind.ofTag? tag with
      | none => exact follows_narrowedFault hslot trivial fun _ => List.mem_cons_self
      | some kind =>
        refine Follows.guard (fun _ => ?_) fun _ => (follows_readBody kind).bind fun slot => ?_
        · rw [fit_bind hnext]
          dsimp only
          cases room with
          | zero =>
            rw [if_pos (by omega)]
            exact follows_narrowedFault hslot trivial fun _ => List.mem_cons_self
          | succ room =>
            have hafter : index + 1 + 1 < end32 := by
              rw [end32]
              omega
            rw [if_neg (by omega)]
            refine (follows_pass kind.width).bind fun _ => ?_
            rw [fit_bind hafter]
            dsimp only
            exact ih room (by omega) (by simp [ConstantPool.push, hindex]) (by omega)
        · rw [fit_bind hnext]
          dsimp only
          exact ih room (by omega) (by simp [ConstantPool.push, hindex]) (by omega)

/-- The name of a class is found as by the look-up. -/
theorem follows_className {pool : ConstantPool} (hfit : pool.TextsFit) (index : UInt16) :
    Follows bytes (Checked.className pool index) (liftM (pool.className index)) := by
  rw [Checked.className, ConstantPool.className]
  cases pool.slots[index.toNat]? with
  | none => exact follows_fail trivial fun _ => trivial
  | some slot =>
    cases slot with
    | classRef name =>
      have hmap : (liftM (nameOfText <$> pool.utf8 name) : Reader String) =
          liftM (pool.utf8 name) >>= fun text => pure (nameOfText text) := by
        cases pool.utf8 name <;> rfl
      dsimp only
      rw [hmap]
      exact follows_text hfit name fun text => follows_pure (nameOfText text)
    | _ => exact follows_fail trivial fun _ => trivial

/-! ## Annotation tables -/

/-- Element values are passed over as by the reader. The depth of a value and the number of levels
that are left for it make up the levels that there are. -/
theorem follows_passValue (levels : Nat) {depth : Nat}
    (hdepth : depth + levels = deepestLevel + 1) :
    Follows bytes (Checked.passValue depth) (ClassFile.passValue levels) := by
  have hsound : depth ≤ deepestLevel + 1 := by omega
  have hdeeper : depth + 1 < Bytes.end64 := by
    rw [deepestLevel] at hdepth
    rw [Bytes.end64]
    omega
  induction levels generalizing depth with
  | zero =>
    obtain rfl : depth = deepestLevel + 1 := by omega
    rw [Checked.passValue, if_pos (by omega)]
    exact follows_recordedFault hsound trivial fun _ => List.mem_cons_self
  | succ levels ih =>
    rw [Checked.passValue, if_neg (by omega), ClassFile.passValue]
    refine Follows.recorded (follows_byte.bind fun tag => ?_) hsound
    have hinner : Follows bytes (Checked.passValue (depth + 1)) (ClassFile.passValue levels) :=
      ih (by omega) (by omega) (by rw [deepestLevel] at hdepth; rw [Bytes.end64]; omega)
    cases ElementForm.ofTag? tag with
    | none => exact follows_fail trivial fun _ => trivial
    | some form =>
      cases form with
      | words count => exact follows_pass (2 * count)
      | nested =>
        refine (follows_pass 2).bind fun _ => ?_
        rw [fit_bind hdeeper]
        exact follows_countedTimes ((follows_pass 2).bind fun _ => hinner)
      | array =>
        simp only [fit_bind hdeeper]
        exact follows_countedTimes hinner

/-- Annotations are read as by the reader. -/
theorem follows_readAnnotated {pool : ConstantPool} (hfit : pool.TextsFit)
    (names : Array String) :
    Follows bytes (Checked.readAnnotated pool names) (ClassFile.readAnnotated pool names) := by
  refine follows_word16.bind fun type => ?_
  refine follows_text hfit type fun descriptor => ?_
  have hpairs : Follows bytes (Checked.passPairs (Checked.passValue 0)) ClassFile.passPairs :=
    follows_countedTimes ((follows_pass 2).bind fun _ => follows_passValue _ (Nat.zero_add _))
  exact hpairs.bind fun _ => follows_pure _

/-- The annotations that a table counts are read as by the reader. -/
theorem follows_readAnnotations {pool : ConstantPool} (hfit : pool.TextsFit)
    (names : Array String) :
    Follows bytes (Checked.readAnnotations pool names) (ClassFile.readAnnotations pool names) :=
  follows_word16.bind fun count => Follows.thread (follows_readAnnotated hfit) count.toNat names

/-- The table that fills a window is read as the table that fills its cursor. -/
theorem agrees_readTable {pool : ConstantPool} (hfit : pool.TextsFit) (names : Array String)
    {around : List Window} {window : Window} {record : List Event}
    (hkept : Kept bytes around window record) :
    ∃ left, ClassFile.readTable pool window.cursor names = left.map (·.1) ∧
      Agrees bytes around record left (Checked.readTable pool names around window record) := by
  obtain ⟨-, hposition, hstop⟩ := hkept.nested.bounded window List.mem_cons_self
  have hget : (get : Checked Window) around window record = (.ok (window, window), record) := rfl
  have hagrees := follows_readAnnotations hfit names around window record hkept
  rw [readTable_eq, Checked.readTable, Checked.bind_of_ok hget, difference_of_le hposition,
    pure_bind]
  generalize hleft : ClassFile.readAnnotations pool names window.cursor = left at hagrees
  generalize hright : Checked.readAnnotations pool names around window record = right at hagrees
  cases hagrees with
  | fault hsound hgrown hwithin hshown =>
    rw [Checked.bind_of_error hright]
    exact ⟨.error _, rfl, .fault hsound hgrown hwithin hshown⟩
  | @ok found after record' hkept' hgrown =>
    -- What was read reaches from the start of the window to the place where the reading ends.
    obtain ⟨front, hrest, hoffset⟩ := (bounded_readAnnotations pool names).moves hleft
    have hfront := congrArg List.length hrest
    rw [List.length_append, hkept.length_rest] at hfront
    have hstart : window.cursor.offset = window.position := rfl
    have hend : after.cursor.offset = after.position := rfl
    have hafter : (get : Checked Window) around after record' = (.ok (after, after), record') := rfl
    rw [Checked.bind_of_ok hright, Checked.bind_of_ok hafter, difference_of_le (by omega),
      pure_bind, hkept.length_rest]
    simp only [bind, Except.bind, hstart, hend]
    by_cases hfull : after.position - window.position = window.stop - window.position
    · rw [if_pos hfull, if_pos hfull]
      exact ⟨.ok (found, after.cursor), rfl, .ok hkept' hgrown⟩
    · rw [if_neg hfull, if_neg hfull]
      exact ⟨.error (.shortTable (window.stop - window.position)
        (after.position - window.position)), rfl,
        .fault hkept'.sound hgrown ⟨by omega, by omega⟩
          ⟨window, around, hgrown.subset hkept.shown, rfl⟩⟩

/-! ## Class files -/

/-- The header is read as by the reader. -/
theorem follows_readHeader : Follows bytes Checked.readHeader ClassFile.readHeader := by
  refine follows_word32.bind fun word => ?_
  have hversion : Follows bytes
      (word16 >>= fun minor => word16 >>= fun major =>
        if major < oldestVersion ∨ newestVersion < major then fail (.unknownVersion major minor)
        else pure ())
      (Reader.word16 >>= fun minor => Reader.word16 >>= fun major =>
        if major < oldestVersion ∨ newestVersion < major then throw (.unknownVersion major minor)
        else pure ()) := by
    refine follows_word16.bind fun minor => follows_word16.bind fun major => ?_
    exact Follows.guard (fun _ => follows_fail trivial fun _ => trivial) fun _ => follows_pure ()
  have hmagic : Follows bytes (fail (.wrongMagic word) : Checked Unit)
      (throw (.wrongMagic word)) := follows_fail trivial fun _ => trivial
  exact Follows.guard (fun _ => hmagic.bind fun _ => hversion) fun _ => hversion

/-- The constant pool is read as by the reader. -/
theorem follows_readPool : Follows bytes Checked.readPool ConstantPool.read :=
  follows_word16.bind fun count => follows_fill (UInt16.toNat_lt count) (count.toNat - 1) rfl rfl

/-- The slots of the class, its parent and its interfaces are read as by the reader. -/
theorem follows_readReferences :
    Follows bytes Checked.readReferences ClassFile.readReferences := by
  refine (follows_pass 2).bind fun _ => follows_word16.bind fun thisClass => ?_
  refine (follows_pass 2).bind fun _ => follows_word16.bind fun interfaces => ?_
  have hcount := UInt16.toNat_lt interfaces
  have hbytes : interfaces.toNat * 2 < Bytes.end64 := by
    rw [Bytes.end64]
    omega
  rw [fit_bind hbytes, Nat.mul_comm 2]
  exact (follows_pass _).bind fun _ => follows_pure thisClass

/-- Fields and methods are passed over as by the reader. -/
theorem follows_passMembers : Follows bytes Checked.passMembers ClassFile.passMembers := by
  have hattribute : Follows bytes Checked.passAttribute ClassFile.passAttribute :=
    (follows_pass 2).bind fun _ => follows_word32.bind fun length => follows_pass length.toNat
  have hmember : Follows bytes Checked.passMember ClassFile.passMember :=
    (follows_pass 6).bind fun _ => follows_countedTimes hattribute
  exact follows_countedTimes hmember

/-- The texts of a pool that was read fit. -/
theorem ConstantPool.textsFit_of_read {pool : ConstantPool} {cursor after : Cursor}
    (hread : ConstantPool.read cursor = .ok (pool, after)) : pool.TextsFit := by
  obtain ⟨_, ⟨_, constants, hformed, -, -, rfl⟩, -⟩ :=
    (ConstantPool.accepts_read cursor pool after).mp hread
  exact textsFit_ofConstants hformed

/-- What stands before the attributes of the class is read as by the reader. -/
theorem follows_readHead : Follows bytes Checked.readHead ClassFile.readHead := by
  refine follows_readHeader.bind fun _ => ?_
  refine follows_readPool.bindGiven fun pool _ _ hpool => ?_
  refine follows_readReferences.bind fun thisClass => ?_
  refine follows_passMembers.bind fun _ => follows_passMembers.bind fun _ => ?_
  exact (follows_className (ConstantPool.textsFit_of_read hpool) thisClass).bind fun _ =>
    follows_pure _

/-- An attribute of the class is read as by the reader. The window that is opened on its content
stands for the body that is split off. -/
theorem follows_readAttribute {pool : ConstantPool} (hfit : pool.TextsFit)
    (names : Array String) :
    Follows bytes (Checked.readAttribute pool names) (ClassFile.readAttribute pool names) := by
  refine follows_word16.bind fun nameIndex => follows_word32.bind fun length => ?_
  refine follows_body length.toNat fun around window inner record hkept hinner => ?_
  cases hname : pool.utf8 nameIndex with
  | error fault =>
    exact .fault hkept.sound (List.suffix_refl record)
      (pool.within_of_utf8 hname 0 bytes.length) (ConstantPool.shownIn_of_utf8 hname record)
  | ok name =>
    change Agrees bytes around record
      ((if name = visibleAnnotations then liftM (ClassFile.readTable pool inner.cursor names)
        else pure names : Reader (Array String)) window.cursor)
      ((if name = visibleAnnotations then inside inner (Checked.readTable pool names)
        else pure names) around window record)
    by_cases hvisible : name = visibleAnnotations
    · obtain ⟨left, htable, hagrees⟩ := agrees_readTable hfit names hinner
      have hlifted : (liftM (left.map (·.1)) : Reader (Array String)) window.cursor =
          left.map fun moved => (moved.1, window.cursor) := by
        cases left <;> rfl
      rw [if_pos hvisible, if_pos hvisible, htable, hlifted]
      exact agrees_inside hkept hagrees
    · rw [if_neg hvisible, if_neg hvisible]
      exact follows_pure names around window record hkept

/-- The attributes of the class are read as by the reader. -/
theorem follows_readAttributes {pool : ConstantPool} (hfit : pool.TextsFit) :
    Follows bytes (Checked.readAttributes pool) (ClassFile.readAttributes pool) :=
  follows_word16.bind fun count => Follows.thread (follows_readAttribute hfit) count.toNat #[]

/-- A class file is read as by the reader. -/
theorem follows_read : Follows bytes Checked.read ClassFile.read := by
  refine follows_readHead.bindGiven fun head _ _ hhead => ?_
  obtain ⟨_, ⟨file, hformed, -, hpool, -⟩, -⟩ := (accepts_readHead _ _ _).mp hhead
  have hfit : head.1.TextsFit := hpool ▸ ConstantPool.textsFit_ofConstants hformed.constants
  exact (follows_readAttributes hfit).bind fun _ => follows_pure _

/-- What it means that reading the bytes of a class file stays in its bounds. -/
structure StaysInBounds (bytes : Bytes) : Prop where
  /-- The checked run has the outcome of parsing. -/
  verdict : (Checked.run bytes).1.map (·.1) = (parse bytes).mapError Halt.fault
  /-- No operation is a breach: no difference falls below zero, every sum and product is a machine
  number, and every stretch and index lies in its bytes. -/
  defined : ∀ breach, (Checked.run bytes).1 ≠ .error (.breach breach)
  /-- The record starts with the window of the whole file; what is recorded first stands last. -/
  opened : (Checked.run bytes).2.getLast? = some (.windows [Window.whole bytes])
  /-- The record has the window of the file at which the run ends. -/
  reached : ∀ summary last, (Checked.run bytes).1 = .ok (summary, last) →
    .windows [last] ∈ (Checked.run bytes).2
  /-- The record shows where a fault was found. -/
  shown : ∀ fault, parse bytes = .error fault → fault.ShownIn (Checked.run bytes).2
  /-- All windows that are ever open are nested in the bytes. -/
  windows : ∀ live, .windows live ∈ (Checked.run bytes).2 → Nested bytes live
  /-- No element value starts deeper than one level below the deepest one that is read. -/
  depths : ∀ depth, .value depth ∈ (Checked.run bytes).2 → depth ≤ 33
  /-- Every number that is cut down to 16 bits fits them. -/
  narrowed : ∀ number, .narrowed number ∈ (Checked.run bytes).2 → number < 65536
  /-- Bytes are only missing from an offset in the bytes on, and at least one is. -/
  truncated : ∀ offset needed, parse bytes = .error (.truncated offset needed) →
    offset ≤ bytes.length ∧ 1 ≤ needed
  /-- A table is only refused for being shorter than an attribute that fits into the bytes. -/
  shortTable : ∀ declared actual, parse bytes = .error (.shortTable declared actual) →
    actual < declared ∧ declared ≤ bytes.length

/-- A fault of parsing is one of reading from the start. -/
theorem read_eq_error_of_parse {fault : Fault} (hfault : parse bytes = .error fault) :
    ClassFile.read (Cursor.start bytes) = .error fault := by
  rw [parse, StateT.run] at hfault
  cases hread : ClassFile.read (Cursor.start bytes) with
  | ok moved =>
    rw [hread] at hfault
    cases hfault
  | error other =>
    rw [hread] at hfault
    exact congrArg Except.error (Except.error.inj hfault)

/-- Reading stays in its bounds on all bytes that a machine of 64 bits can address. -/
theorem stays_in_bounds {bytes : Bytes} (haddressable : bytes.length < Bytes.end64) :
    StaysInBounds bytes := by
  have hkept : Kept bytes [] (Window.whole bytes) [.windows [Window.whole bytes]] :=
    ⟨haddressable, List.forall_mem_singleton.mpr (Nested.whole bytes), List.mem_singleton_self _⟩
  have hcursor : (Window.whole bytes).cursor = Cursor.start bytes := by
    simp [Window.cursor, Window.whole, Cursor.start]
  have hagrees : Agrees bytes [] [.windows [Window.whole bytes]]
      (ClassFile.read (Cursor.start bytes)) (Checked.run bytes) :=
    hcursor ▸ follows_read [] (Window.whole bytes) _ hkept
  have hwithin : ∀ fault, parse bytes = .error fault → fault.Within 0 bytes.length :=
    fun _ hfault => hagrees.within (read_eq_error_of_parse hfault)
  exact {
    verdict := hagrees.outcome_eq
    defined := hagrees.defined
    opened := by
      obtain ⟨later, hlater⟩ := hagrees.grown
      rw [← hlater, List.getLast?_append]
      rfl
    reached := fun _ _ => hagrees.shown
    shown := fun _ hfault => hagrees.shown_fault (read_eq_error_of_parse hfault)
    windows := fun _ hlive => hagrees.sound _ hlive
    depths := fun _ hdepth => hagrees.sound _ hdepth
    narrowed := fun _ hnumber => hagrees.sound _ hnumber
    truncated := fun _ _ hfault => (hwithin _ hfault).2
    shortTable := fun _ _ hfault => hwithin _ hfault }

/-- Lists of element values that are nested too deeply are read in the window of their attribute,
down to the first value that is too deep. That value is refused, and no operation is a breach. -/
theorem stays_in_bounds_nestedLists :
    let bytes := (AnnotationSite.nestedLists 33 [1]).bytes
    bytes.length < Bytes.end64 ∧ parse bytes = .error (.tooDeep 32) ∧
      .windows [⟨bytes, 80, 190⟩, ⟨bytes, 190, 191⟩] ∈ (Checked.run bytes).2 ∧
      .value 33 ∈ (Checked.run bytes).2 ∧ StaysInBounds bytes := by
  intro bytes
  have haddressable : bytes.length < Bytes.end64 := by decide +kernel
  have hfault : parse bytes = .error (.tooDeep 32) := by decide +kernel
  have hopened : .windows [⟨bytes, 80, 190⟩, ⟨bytes, 190, 191⟩] ∈ (Checked.run bytes).2 := by
    decide +kernel
  have hdeep : .value 33 ∈ (Checked.run bytes).2 := by decide +kernel
  exact ⟨haddressable, hfault, hopened, hdeep, stays_in_bounds haddressable⟩

end JarCensus.ClassFile
