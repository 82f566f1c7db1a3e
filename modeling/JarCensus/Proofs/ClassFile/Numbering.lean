import JarCensus.Proofs.ClassFile.Prefix
import JarCensus.Proofs.Success

/-!
# How the slots of a constant pool are numbered

The first constant starts at slot one, and every other behind the slots of the constants
before it, two of them for a long or a double. This numbering decides which slot a fault of
the pool names, and which constant an index finds: it finds the one that starts at its slot,
and nothing anywhere else.
-/

namespace JarCensus.ClassFile

open Reader

/-- Whether a constant of a pool starts at a slot. -/
def StartsAt (constants : List Constant) (slot : Nat) (constant : Constant) : Prop :=
  ∃ before after, constants = before ++ constant :: after ∧ slot = (slotsOf before).length + 1

/-- A class file up to some constants of its pool, after which slots are left. -/
structure PoolStart where
  /-- The minor version. -/
  minor : UInt16
  /-- The major version. -/
  major : UInt16
  /-- The declared count of slots. -/
  count : UInt16
  /-- The constants. -/
  constants : List Constant
  /-- The version is supported. -/
  version : oldestVersion ≤ major ∧ major ≤ newestVersion
  /-- The constants have the lengths of their kinds. -/
  wellFormed : ∀ constant ∈ constants, constant.WellFormed
  /-- The constants leave a slot. -/
  room : (slotsOf constants).length + 1 < count.toNat

namespace PoolStart

/-- The bytes up to the constants. -/
def bytes (start : PoolStart) : Bytes :=
  Bytes.ofWord32 magic ++ Bytes.ofWord16 start.minor ++ Bytes.ofWord16 start.major ++
    Bytes.ofWord16 start.count ++ start.constants.flatMap Constant.encode

/-- The first slot that is left. -/
def next (start : PoolStart) : Nat := (slotsOf start.constants).length + 1

end PoolStart

/-! ## Faults of the pool -/

namespace ConstantPool

/-- Reading a constant fills its slots and leaves the others. -/
theorem fill_encode {constant : Constant} (hformed : constant.WellFormed) (room : Nat)
    (pool : ConstantPool) (offset : Nat) (rest : Bytes) :
    fill (constant.slots.length + room) pool ⟨offset, constant.encode ++ rest⟩ =
      fill room ⟨pool.slots ++ constant.slots⟩ ⟨offset + constant.encode.length, rest⟩ := by
  have htag : byte ⟨offset, constant.kind.tag :: (constant.content ++ rest)⟩ =
      .ok (constant.kind.tag, ⟨offset + 1, constant.content ++ rest⟩) := rfl
  have hlength : offset + constant.encode.length = offset + 1 + constant.content.length := by
    rw [Constant.encode_eq, List.length_cons]
    omega
  rw [hlength, Constant.encode_eq, List.cons_append]
  by_cases hwide : constant.kind.isWide
  · have hslots := Constant.slots_of_isWide hwide
    have hcontent : pass constant.kind.width ⟨offset + 1, constant.content ++ rest⟩ =
        .ok ((), ⟨offset + 1 + constant.content.length, rest⟩) :=
      (accepts_pass constant.kind.width ..).mpr ⟨constant.content,
        (Constant.exists_isWide_iff hwide).mp ⟨constant, hformed, rfl, rfl, hslots⟩, rfl, rfl⟩
    rw [hslots, show [Slot.other, Slot.unusable].length + room = room + 1 + 1 by simp; omega, fill,
      bind_of_ok htag]
    simp only [ConstantKind.ofTag?_tag, hwide, if_true]
    rw [bind_of_ok hcontent]
    congr 1
  · obtain ⟨slot, hslots⟩ := Constant.slots_of_narrow hwide
    have hbody : readBody constant.kind ⟨offset + 1, constant.content ++ rest⟩ =
        .ok (slot, ⟨offset + 1 + constant.content.length, rest⟩) :=
      (accepts_readBody hwide ..).mpr ⟨constant.content, ⟨constant, hformed, rfl, rfl, hslots⟩,
        rfl, rfl⟩
    rw [hslots, show [slot].length + room = room + 1 by simp; omega, fill, bind_of_ok htag]
    simp only [ConstantKind.ofTag?_tag, hwide]
    exact bind_of_ok hbody

/-- Reading constants fills their slots and leaves the others. -/
theorem fill_encodes {constants : List Constant}
    (hformed : ∀ constant ∈ constants, constant.WellFormed) (room : Nat) (pool : ConstantPool)
    (offset : Nat) (rest : Bytes) :
    fill ((slotsOf constants).length + room) pool
        ⟨offset, constants.flatMap Constant.encode ++ rest⟩ =
      fill room ⟨pool.slots ++ slotsOf constants⟩
        ⟨offset + (constants.flatMap Constant.encode).length, rest⟩ := by
  induction constants generalizing pool offset with
  | nil => simp [slotsOf]
  | cons constant constants ih =>
    obtain ⟨hfirst, hothers⟩ := List.forall_mem_cons.mp hformed
    have hlength : (slotsOf (constant :: constants)).length + room =
        constant.slots.length + ((slotsOf constants).length + room) := by
      simp [slotsOf, Nat.add_assoc]
    have hslots : pool.slots ++ constant.slots ++ slotsOf constants =
        pool.slots ++ slotsOf (constant :: constants) :=
      Array.toList_inj.mp (by simp [slotsOf])
    rw [hlength, List.flatMap_cons, List.append_assoc, fill_encode hfirst, ih hothers, hslots,
      List.length_append, Nat.add_assoc]

/-- A tag that announces no constant is a fault of the next slot. -/
theorem fill_of_unknown {tag : UInt8} (hunknown : ∀ kind : ConstantKind, kind.tag ≠ tag)
    (room : Nat) (pool : ConstantPool) (offset : Nat) (rest : Bytes) :
    fill (room + 1) pool ⟨offset, tag :: rest⟩ =
      .error (.unknownConstant pool.slots.size tag) := by
  have hnone : ConstantKind.ofTag? tag = none := by
    cases htag : ConstantKind.ofTag? tag with
    | none => rfl
    | some kind => exact absurd (ConstantKind.ofTag?_eq_some_iff.mp htag).symm (hunknown kind)
  have hbyte : byte ⟨offset, tag :: rest⟩ = .ok (tag, ⟨offset + 1, rest⟩) := rfl
  rw [fill, bind_of_ok hbyte, hnone]
  rfl

/-- A wide constant that would start in the last slot is a fault of this slot. -/
theorem fill_of_wide (kind : ConstantKind) (hwide : kind.isWide = true) (pool : ConstantPool)
    (offset : Nat) (rest : Bytes) :
    fill 1 pool ⟨offset, kind.tag :: rest⟩ = .error (.wrongSlot pool.slots.size .twoSlots) := by
  have hbyte : byte ⟨offset, kind.tag :: rest⟩ = .ok (kind.tag, ⟨offset + 1, rest⟩) := rfl
  rw [fill, bind_of_ok hbyte, ConstantKind.ofTag?_tag]
  simp only [hwide, if_true]
  rfl

end ConstantPool

namespace PoolStart

/-- The next slot has a number of 16 bits. -/
theorem next_lt (start : PoolStart) : start.next < 65536 :=
  Nat.lt_trans start.room start.count.toNat_lt

/-- A file has the fault of what follows the constants that it starts with. -/
theorem parse_of_fill_error (start : PoolStart) {rest : Bytes} {fault : Fault}
    (hfault : ∀ pool offset, pool.slots.size = start.next →
      ConstantPool.fill (start.count.toNat - start.next) pool ⟨offset, rest⟩ = .error fault) :
    parse (start.bytes ++ rest) = .error fault := by
  have hheader : readHeader (Cursor.start (start.bytes ++ rest)) = .ok ((), ⟨8,
      Bytes.ofWord16 start.count ++ (start.constants.flatMap Constant.encode ++ rest)⟩) :=
    (accepts_readHeader ..).mpr ⟨_, ⟨start.minor, start.major, start.version, rfl⟩,
      by simp [bytes, Cursor.start], rfl⟩
  have hcount : word16 ⟨8, Bytes.ofWord16 start.count ++
      (start.constants.flatMap Constant.encode ++ rest)⟩ =
        .ok (start.count, ⟨10, start.constants.flatMap Constant.encode ++ rest⟩) :=
    (accepts_word16 ..).mpr ⟨_, rfl, rfl, rfl⟩
  have hroom : start.count.toNat - 1 =
      (slotsOf start.constants).length + (start.count.toNat - start.next) := by
    have hroom := start.room
    simp only [next]
    omega
  have hpool : ConstantPool.read ⟨8, Bytes.ofWord16 start.count ++
      (start.constants.flatMap Constant.encode ++ rest)⟩ = .error fault := by
    rw [ConstantPool.read, bind_of_ok hcount, hroom, ConstantPool.fill_encodes start.wellFormed]
    refine hfault _ _ ?_
    simp [ConstantPool.opening, next, Nat.add_comm]
  have hread : read (Cursor.start (start.bytes ++ rest)) = .error fault := by
    rw [read, readHead]
    refine bind_of_error ?_
    rw [bind_of_ok hheader]
    exact bind_of_error hpool
  rw [parse, StateT.run, hread]
  rfl

end PoolStart

/-! ## Look-ups -/

/-- The slots of some constants come in front of those of the constants behind them. -/
theorem slotsOf_append (before after : List Constant) :
    slotsOf (before ++ after) = slotsOf before ++ slotsOf after :=
  List.flatMap_append

/-- A constant fills at least one slot. -/
theorem Constant.length_slots_pos (constant : Constant) : 0 < constant.slots.length := by
  by_cases hwide : constant.kind.isWide
  · simp [slots_of_isWide hwide]
  · obtain ⟨slot, hslot⟩ := slots_of_narrow hwide
    simp [hslot]

/-- A constant moves the constants behind it on. -/
theorem length_slotsOf_lt (before between : List Constant) (constant : Constant) :
    (slotsOf before).length < (slotsOf (before ++ constant :: between)).length := by
  have hpos := constant.length_slots_pos
  have hsplit : slotsOf (constant :: between) = constant.slots ++ slotsOf between := rfl
  rw [slotsOf_append, hsplit, List.length_append, List.length_append]
  omega

/-- At most one constant starts at a slot. -/
theorem eq_of_startsAt {constants : List Constant} {slot : Nat} {constant other : Constant}
    (hconstant : StartsAt constants slot constant) (hother : StartsAt constants slot other) :
    constant = other := by
  obtain ⟨before, after, rfl, rfl⟩ := hconstant
  obtain ⟨before', after', hsame, hlength⟩ := hother
  -- The constants before the one are those before the other, or one of the two is among them.
  rcases List.append_eq_append_iff.mp hsame with ⟨_ | ⟨first, more⟩, hbefore, hrest⟩ |
      ⟨_ | ⟨first, more⟩, hbefore, hrest⟩
  · exact (List.cons.inj hrest).1
  · have hlater := length_slotsOf_lt before more first
    rw [← hbefore] at hlater
    omega
  · exact (List.cons.inj hrest).1.symm
  · have hlater := length_slotsOf_lt before' more first
    rw [← hbefore] at hlater
    omega

/-- A slot of a pool is one of the slots of the constant that is behind just the constants whose
slots are all before it. -/
theorem getElem?_slotsOf_eq_some_iff {constants : List Constant} {position : Nat} {slot : Slot} :
    (slotsOf constants)[position]? = some slot ↔ ∃ before constant after own,
      constants = before ++ constant :: after ∧ constant.slots[own]? = some slot ∧
        position = (slotsOf before).length + own := by
  constructor
  · intro h
    induction constants generalizing position with
    | nil => simp [slotsOf] at h
    | cons constant constants ih =>
      have hsplit : slotsOf (constant :: constants) = constant.slots ++ slotsOf constants := rfl
      rw [hsplit] at h
      rcases Nat.lt_or_ge position constant.slots.length with hown | hbehind
      · rw [List.getElem?_append_left hown] at h
        exact ⟨[], constant, constants, position, rfl, h, (Nat.zero_add _).symm⟩
      · rw [List.getElem?_append_right hbehind] at h
        obtain ⟨before, other, after, own, rfl, hslot, hposition⟩ := ih h
        refine ⟨constant :: before, other, after, own, rfl, hslot, ?_⟩
        rw [show slotsOf (constant :: before) = constant.slots ++ slotsOf before from rfl,
          List.length_append]
        omega
  · rintro ⟨before, constant, after, own, rfl, hslot, rfl⟩
    have hinside : own < constant.slots.length := (List.getElem?_eq_some_iff.mp hslot).1
    rw [slotsOf_append, List.getElem?_append_right (Nat.le_add_right _ _), Nat.add_sub_cancel_left]
    exact (List.getElem?_append_left hinside).trans hslot

/-- What names can use is in the slots of a constant exactly when it is the only one. -/
theorem Constant.getElem?_slots_eq_some_iff {constant : Constant} {own : Nat} {slot : Slot}
    (hother : slot ≠ .other) (husable : slot ≠ .unusable) :
    constant.slots[own]? = some slot ↔ constant.slots = [slot] ∧ own = 0 := by
  by_cases hwide : constant.kind.isWide
  · rw [slots_of_isWide hwide]
    rcases own with _ | _ | own <;> simp [hother.symm, husable.symm]
  · obtain ⟨only, honly⟩ := slots_of_narrow hwide
    rw [honly]
    cases own <;> simp

/-- The slot of a text is that of the text alone. -/
theorem Constant.slots_eq_utf8_iff {constant : Constant} {text : Bytes} :
    constant.slots = [.utf8 text] ↔ constant = .utf8 text := by
  cases constant with
  | utf8 other => simp [slots]
  | classRef name => simp [slots]
  | plain kind content =>
    rw [slots]
    split <;> simp

/-- The slot of a class is that of the class alone. -/
theorem Constant.slots_eq_classRef_iff {constant : Constant} {name : UInt16} :
    constant.slots = [.classRef name] ↔ constant = .classRef name := by
  cases constant with
  | utf8 text => simp [slots]
  | classRef other => simp [slots]
  | plain kind content =>
    rw [slots]
    split <;> simp

namespace ConstantPool

variable {pool : ConstantPool} {constants : List Constant} {constant : Constant} {index : Nat}

/-- Slot zero holds nothing, and the slots behind it are those of the constants. -/
theorem getElem?_ofConstants (constants : List Constant) (index : Nat) :
    (ofConstants constants).slots[index]? = (Slot.unusable :: slotsOf constants)[index]? :=
  List.getElem?_toArray

/-- The slots from the one on at which a constant starts are those of the constant. -/
theorem getElem?_of_startsAt (hstarts : StartsAt constants index constant) {own : Nat}
    (hown : own < constant.slots.length) :
    (ofConstants constants).slots[index + own]? = constant.slots[own]? := by
  obtain ⟨before, after, rfl, rfl⟩ := hstarts
  obtain ⟨slot, hslot⟩ : ∃ slot, constant.slots[own]? = some slot :=
    ⟨_, List.getElem?_eq_getElem hown⟩
  rw [getElem?_ofConstants, Nat.add_right_comm, List.getElem?_cons_succ, hslot,
    getElem?_slotsOf_eq_some_iff]
  exact ⟨before, constant, after, own, rfl, hslot, rfl⟩

/-- A slot that names can use belongs to the constant that starts at it. -/
theorem getElem?_ofConstants_eq_some_iff {slot : Slot} (hother : slot ≠ .other)
    (husable : slot ≠ .unusable) (hconstant : ∀ {other : Constant}, other.slots = [slot] ↔
      other = constant) :
    (ofConstants constants).slots[index]? = some slot ↔ StartsAt constants index constant := by
  rw [getElem?_ofConstants]
  cases index with
  | zero =>
    refine iff_of_false (by simpa using husable.symm) ?_
    rintro ⟨_, _, -, hzero⟩
    cases hzero
  | succ position =>
    rw [List.getElem?_cons_succ, getElem?_slotsOf_eq_some_iff]
    constructor
    · rintro ⟨before, other, after, own, rfl, hslot, rfl⟩
      obtain ⟨hslots, rfl⟩ := (Constant.getElem?_slots_eq_some_iff hother husable).mp hslot
      exact ⟨before, after, by rw [hconstant.mp hslots], rfl⟩
    · rintro ⟨before, after, rfl, hposition⟩
      refine ⟨before, constant, after, 0, rfl, ?_, Nat.succ.inj hposition⟩
      exact (Constant.getElem?_slots_eq_some_iff hother husable).mpr ⟨hconstant.mpr rfl, rfl⟩

/-- A text is found exactly in the slot that holds it. -/
theorem utf8_eq_ok_iff {index : UInt16} {text : Bytes} :
    pool.utf8 index = .ok text ↔ pool.slots[index.toNat]? = some (.utf8 text) := by
  rw [utf8]
  split <;> simp_all

/-- Where no text is held, a text is missed. -/
theorem utf8_eq_error {index : UInt16}
    (hnone : ∀ text, pool.slots[index.toNat]? ≠ some (.utf8 text)) :
    pool.utf8 index = .error (.wrongSlot index.toNat .utf8) := by
  rw [utf8]
  split
  · rename_i text htext
    exact absurd htext (hnone text)
  · rfl

/-- A class has the name that the text of its slot spells. -/
theorem className_of_classRef {index name : UInt16}
    (hclass : pool.slots[index.toNat]? = some (.classRef name)) :
    pool.className index = nameOfText <$> pool.utf8 name := by
  simp only [className, hclass]

/-- Where no class is held, a class is missed. -/
theorem className_eq_error {index : UInt16}
    (hnone : ∀ name, pool.slots[index.toNat]? ≠ some (.classRef name)) :
    pool.className index = .error (.wrongSlot index.toNat .classRef) := by
  rw [className]
  split
  · rename_i name hname
    exact absurd hname (hnone name)
  · rfl

/-- Whether neither a text nor a class is found in a slot. -/
def FindsNothing (pool : ConstantPool) (index : UInt16) : Prop :=
  pool.utf8 index = .error (.wrongSlot index.toNat .utf8) ∧
    pool.className index = .error (.wrongSlot index.toNat .classRef)

/-- Nothing is found in a slot that is not there or holds nothing that names can use. -/
theorem findsNothing_of {index : UInt16} (hnone : ∀ slot, pool.slots[index.toNat]? = some slot →
    slot = .other ∨ slot = .unusable) : pool.FindsNothing index := by
  refine ⟨utf8_eq_error fun text htext => ?_, className_eq_error fun name hname => ?_⟩
  · simpa using hnone _ htext
  · simpa using hnone _ hname

end ConstantPool

/-- What the constants of a pool say of its slots. -/
structure PoolNumbered (pool : ConstantPool) (count : UInt16) (constants : List Constant) :
    Prop where
  /-- There are as many slots as are declared. -/
  size : 1 ≤ count.toNat → pool.slots.size = count.toNat
  /-- A text is found exactly at the slot at which it starts. -/
  texts : ∀ index text, pool.utf8 index = .ok text ↔ StartsAt constants index.toNat (.utf8 text)
  /-- Everywhere else a text is missed. -/
  noText : ∀ index : UInt16, (¬ ∃ text, StartsAt constants index.toNat (.utf8 text)) →
    pool.utf8 index = .error (.wrongSlot index.toNat .utf8)
  /-- The name of a class is found exactly at the slot at which the class starts, and it is what
  its text spells. -/
  classes : ∀ index name, pool.className index = .ok name ↔ ∃ own text,
    StartsAt constants index.toNat (.classRef own) ∧ StartsAt constants own.toNat (.utf8 text) ∧
      name = nameOfText text
  /-- A class whose text is missed has no name. -/
  unnamed : ∀ (index own : UInt16), StartsAt constants index.toNat (.classRef own) →
    (¬ ∃ text, StartsAt constants own.toNat (.utf8 text)) →
    pool.className index = .error (.wrongSlot own.toNat .utf8)
  /-- Everywhere else a class is missed. -/
  noClass : ∀ index : UInt16, (¬ ∃ own, StartsAt constants index.toNat (.classRef own)) →
    pool.className index = .error (.wrongSlot index.toNat .classRef)
  /-- Nothing is found in slot zero. -/
  zero : pool.FindsNothing 0
  /-- Nothing is found in the second slot of a long or a double. -/
  second : ∀ (index : UInt16) slot constant, StartsAt constants slot constant →
    constant.kind = .long ∨ constant.kind = .double → index.toNat = slot + 1 →
    pool.FindsNothing index
  /-- No text is found where a constant of another kind starts. -/
  otherThanText : ∀ (index : UInt16) constant, StartsAt constants index.toNat constant →
    constant.kind ≠ .utf8 → pool.utf8 index = .error (.wrongSlot index.toNat .utf8)
  /-- No class is found where a constant of another kind starts. -/
  otherThanClass : ∀ (index : UInt16) constant, StartsAt constants index.toNat constant →
    constant.kind ≠ .classRef →
    pool.className index = .error (.wrongSlot index.toNat .classRef)
  /-- Nothing is found behind the declared slots. -/
  beyond : ∀ index, count ≤ index → pool.FindsNothing index

/-- A pool whose constants fill its declared slots is numbered by them. -/
theorem poolNumbered_ofConstants {count : UInt16} {constants : List Constant}
    (hslots : (slotsOf constants).length = count.toNat - 1) :
    PoolNumbered (.ofConstants constants) count constants := by
  have htext (index : UInt16) (text : Bytes) :
      (ConstantPool.ofConstants constants).slots[index.toNat]? = some (.utf8 text) ↔
        StartsAt constants index.toNat (.utf8 text) :=
    ConstantPool.getElem?_ofConstants_eq_some_iff nofun nofun Constant.slots_eq_utf8_iff
  have hclass (index own : UInt16) :
      (ConstantPool.ofConstants constants).slots[index.toNat]? = some (.classRef own) ↔
        StartsAt constants index.toNat (.classRef own) :=
    ConstantPool.getElem?_ofConstants_eq_some_iff nofun nofun Constant.slots_eq_classRef_iff
  have hsize : (ConstantPool.ofConstants constants).slots.size = count.toNat - 1 + 1 := by
    simp [ConstantPool.ofConstants, hslots]
  have hnoText (index : UInt16) (hnone : ¬ ∃ text, StartsAt constants index.toNat (.utf8 text)) :
      (ConstantPool.ofConstants constants).utf8 index = .error (.wrongSlot index.toNat .utf8) :=
    ConstantPool.utf8_eq_error fun text h => hnone ⟨text, (htext index text).mp h⟩
  have hnoClass (index : UInt16)
      (hnone : ¬ ∃ own, StartsAt constants index.toNat (.classRef own)) :
      (ConstantPool.ofConstants constants).className index =
        .error (.wrongSlot index.toNat .classRef) :=
    ConstantPool.className_eq_error fun own h => hnone ⟨own, (hclass index own).mp h⟩
  constructor
  case size =>
    intro hcount
    omega
  case texts =>
    intro index text
    rw [ConstantPool.utf8_eq_ok_iff, htext]
  case noText => exact hnoText
  case classes =>
    intro index name
    constructor
    · intro h
      by_cases hsome : ∃ own, StartsAt constants index.toNat (.classRef own)
      · obtain ⟨own, hown⟩ := hsome
        rw [ConstantPool.className_of_classRef ((hclass index own).mpr hown), map_eq_ok_iff] at h
        obtain ⟨text, hfound, rfl⟩ := h
        exact ⟨own, text, hown, (htext own text).mp (ConstantPool.utf8_eq_ok_iff.mp hfound), rfl⟩
      · rw [hnoClass index hsome] at h
        cases h
    · rintro ⟨own, text, hown, hstarts, rfl⟩
      rw [ConstantPool.className_of_classRef ((hclass index own).mpr hown),
        ConstantPool.utf8_eq_ok_iff.mpr ((htext own text).mpr hstarts)]
      rfl
  case unnamed =>
    intro index own hown hnone
    rw [ConstantPool.className_of_classRef ((hclass index own).mpr hown), hnoText own hnone]
    rfl
  case noClass => exact hnoClass
  case zero =>
    refine ConstantPool.findsNothing_of fun slot hslot => .inr ?_
    rw [ConstantPool.getElem?_ofConstants] at hslot
    exact (Option.some.inj hslot).symm
  case second =>
    intro index slot constant hstarts hkind hindex
    have hslots : constant.slots = [.other, .unusable] :=
      Constant.slots_of_isWide (by rcases hkind with h | h <;> rw [h] <;> rfl)
    have hsecond := ConstantPool.getElem?_of_startsAt hstarts
      (show 1 < constant.slots.length by simp [hslots])
    refine ConstantPool.findsNothing_of fun held hheld => .inr ?_
    rw [hindex, hsecond, hslots] at hheld
    exact (Option.some.inj hheld).symm
  case otherThanText =>
    intro index constant hstarts hkind
    refine hnoText index ?_
    rintro ⟨text, htext⟩
    exact hkind (congrArg Constant.kind (eq_of_startsAt hstarts htext))
  case otherThanClass =>
    intro index constant hstarts hkind
    refine hnoClass index ?_
    rintro ⟨own, hown⟩
    exact hkind (congrArg Constant.kind (eq_of_startsAt hstarts hown))
  case beyond =>
    intro index hbeyond
    refine ConstantPool.findsNothing_of fun slot hslot => ?_
    have hinside := (Array.getElem?_eq_some_iff.mp hslot).1
    have hcount := UInt16.le_iff_toNat_le.mp hbeyond
    have hindex : index.toNat = 0 := by omega
    rw [hindex, ConstantPool.getElem?_ofConstants] at hslot
    exact .inr (Option.some.inj hslot).symm

/-- How faults of a constant pool and look-ups in it follow the numbering of its slots. -/
structure SlotsNumbered : Prop where
  /-- The number of a slot that is left fits the word of an index. -/
  fits : ∀ start : PoolStart, start.next < 65536
  /-- A tag that announces none of the kinds is a fault of the next slot. -/
  unknown : ∀ (start : PoolStart) (tag : UInt8) (rest : Bytes),
    (∀ kind : ConstantKind, kind.tag ≠ tag) →
    parse (start.bytes ++ tag :: rest) = .error (.unknownConstant start.next tag)
  /-- A long or a double for which only the last slot is left is a fault of this slot, whatever
  follows its tag. -/
  noRoom : ∀ (start : PoolStart) (tag : UInt8) (rest : Bytes), tag = 5 ∨ tag = 6 →
    start.next = start.count.toNat - 1 →
    parse (start.bytes ++ tag :: rest) = .error (.wrongSlot start.next .twoSlots)
  /-- A pool that is read to its end is numbered by the constants that were read. -/
  numbered : ∀ (cursor after : Cursor) (pool : ConstantPool),
    ConstantPool.read cursor = .ok (pool, after) → ∃ (count : UInt16) (constants : List Constant),
      cursor.rest = Bytes.ofWord16 count ++ constants.flatMap Constant.encode ++ after.rest ∧
      (∀ constant ∈ constants, constant.WellFormed) ∧
      (slotsOf constants).length = count.toNat - 1 ∧ PoolNumbered pool count constants

/-- Faults of a constant pool and look-ups in it follow the numbering of its slots. -/
theorem slots_numbered : SlotsNumbered where
  fits := PoolStart.next_lt
  unknown := by
    intro start tag rest hunknown
    refine start.parse_of_fill_error fun pool offset hsize => ?_
    obtain ⟨more, hmore⟩ := Nat.exists_eq_add_of_lt start.room
    have hroom : start.count.toNat - start.next = more + 1 := by
      simp only [PoolStart.next]
      omega
    rw [hroom, ConstantPool.fill_of_unknown hunknown, hsize]
  noRoom := by
    intro start tag rest htag hlast
    refine start.parse_of_fill_error fun pool offset hsize => ?_
    have hroom : start.count.toNat - start.next = 1 := by
      have hroom := start.room
      simp only [PoolStart.next] at hlast ⊢
      omega
    rw [hroom, ← hsize]
    rcases htag with rfl | rfl
    · exact ConstantPool.fill_of_wide .long rfl pool offset rest
    · exact ConstantPool.fill_of_wide .double rfl pool offset rest
  numbered := by
    intro cursor after pool hread
    obtain ⟨_, ⟨count, constants, hformed, hslots, rfl, rfl⟩, hrest, -⟩ :=
      (ConstantPool.accepts_read ..).mp hread
    exact ⟨count, constants, hrest, hformed, hslots, poolNumbered_ofConstants hslots⟩

/-- A tag that announces nothing is a fault of slot three when a long comes before it. -/
theorem slots_numbered_afterLong :
    parse [0xCA, 0xFE, 0xBA, 0xBE, 0, 0, 0, 52, 0, 5, 5, 0, 0, 0, 0, 0, 0, 0, 9, 2] =
      .error (.unknownConstant 3 2) := by
  let start : PoolStart :=
    { minor := 0, major := 52, count := 5, constants := [.plain .long [0, 0, 0, 0, 0, 0, 0, 9]]
      version := by decide
      wellFormed := by simp [Constant.WellFormed, ConstantKind.width]
      room := by decide }
  have hbytes : start.bytes ++ [2] =
      [0xCA, 0xFE, 0xBA, 0xBE, 0, 0, 0, 52, 0, 5, 5, 0, 0, 0, 0, 0, 0, 0, 9, 2] := by decide
  rw [← hbytes]
  exact slots_numbered.unknown start 2 [] fun kind => by cases kind <;> decide

end JarCensus.ClassFile
