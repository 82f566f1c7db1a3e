import JarCensus.ClassFile.Encoding.Constant
import JarCensus.Proofs.ClassFile.Acceptance

/-!
# Reading constants

A constant pool is read exactly when well-formed constants fill its slots. The tag fixes
the kind of a constant, the kind fixes what follows and how many slots it takes, and a
wide constant needs room for both of its slots.
-/

namespace JarCensus.ClassFile

/-- A tag announces the one kind that is written with it. -/
theorem ConstantKind.ofTag?_eq_some_iff {tag : UInt8} {kind : ConstantKind} :
    ofTag? tag = some kind ↔ tag = kind.tag := by
  constructor
  · intro h
    unfold ofTag? at h
    split at h
    all_goals cases h
    all_goals exact UInt8.toNat_inj.mp ‹_›
  · rintro rfl
    exact ofTag?_tag kind

/-- Kinds with the same tag are the same. -/
theorem ConstantKind.tag_inj {kind kind' : ConstantKind} : kind.tag = kind'.tag ↔ kind = kind' := by
  rw [← ofTag?_eq_some_iff, ofTag?_tag, Option.some.injEq]

namespace Constant

/-- The bytes of a constant after its tag. -/
def content : Constant → Bytes
  | utf8 text => Bytes.ofWord16 (.ofNat text.length) ++ text
  | classRef name => Bytes.ofWord16 name
  | plain _ content => content

/-- A constant is written as the tag of its kind and its content. -/
theorem encode_eq (constant : Constant) :
    constant.encode = constant.kind.tag :: constant.content := by
  cases constant <;> rfl

/-- A wide constant fills two slots, neither of which names can use. -/
theorem slots_of_isWide {constant : Constant} (h : constant.kind.isWide) :
    constant.slots = [.other, .unusable] := by
  cases constant with
  | utf8 => cases h
  | classRef => cases h
  | plain kind content => exact if_pos h

/-- Every other constant fills one slot. -/
theorem slots_of_narrow {constant : Constant} (h : ¬constant.kind.isWide) :
    ∃ slot, constant.slots = [slot] := by
  cases constant with
  | utf8 text => exact ⟨.utf8 text, rfl⟩
  | classRef name => exact ⟨.classRef name, rfl⟩
  | plain kind content => exact ⟨.other, if_neg h⟩

/-- The contents of wide constants are the byte strings of their width. -/
theorem exists_isWide_iff {kind : ConstantKind} (h : kind.isWide) {bytes : Bytes} :
    (∃ constant : Constant, constant.WellFormed ∧ constant.kind = kind ∧
      constant.content = bytes ∧ constant.slots = [.other, .unusable]) ↔
      bytes.length = kind.width := by
  constructor
  · rintro ⟨constant, hformed, rfl, rfl, -⟩
    cases constant with
    | utf8 => cases h
    | classRef => cases h
    | plain kind content => exact hformed.2.2
  · intro hlength
    refine ⟨plain kind bytes, ⟨?_, ?_, hlength⟩, rfl, rfl, slots_of_isWide h⟩
    · rintro rfl
      cases h
    · rintro rfl
      cases h

end Constant

namespace ConstantPool

open Reader

/-- What follows the tag of a narrow constant is read exactly when it is the content of a
well-formed constant, and then as the one slot that the constant fills. -/
theorem accepts_readBody {kind : ConstantKind} (hnarrow : ¬kind.isWide) :
    (readBody kind).Accepts fun bytes slot => ∃ constant : Constant, constant.WellFormed ∧
      constant.kind = kind ∧ constant.content = bytes ∧ constant.slots = [slot] := by
  unfold readBody
  split
  · refine (accepts_word16.bind fun length => (accepts_take length.toNat).bind fun text =>
      accepts_pure (Slot.utf8 text)).congr fun bytes slot => ?_
    constructor
    · rintro ⟨length, _, _, rfl, rfl, text, _, _, rfl, ⟨rfl, hlength⟩, rfl, rfl⟩
      refine ⟨.utf8 text, ?_, rfl, ?_, rfl⟩
      · have hword := length.toNat_lt
        exact show text.length < 65536 by omega
      · simp [Constant.content, hlength]
    · rintro ⟨constant, hformed, hkind, rfl, hslots⟩
      cases constant with
      | utf8 text =>
        obtain rfl := by simpa [Constant.slots] using hslots
        refine ⟨_, _, text, rfl, rfl, text, text, [], by simp, ⟨rfl, ?_⟩, rfl, rfl⟩
        exact (UInt16.toNat_ofNat_of_lt' hformed).symm
      | classRef => cases hkind
      | plain kind content => exact absurd hkind hformed.1
  · refine (accepts_word16.bind fun name => accepts_pure (Slot.classRef name)).congr
      fun bytes slot => ?_
    constructor
    · rintro ⟨name, _, _, rfl, rfl, rfl, rfl⟩
      exact ⟨.classRef name, trivial, rfl, by simp [Constant.content], rfl⟩
    · rintro ⟨constant, hformed, hkind, rfl, hslots⟩
      cases constant with
      | utf8 => cases hkind
      | classRef name =>
        obtain rfl := by simpa [Constant.slots] using hslots
        exact ⟨name, _, [], by simp [Constant.content], rfl, rfl, rfl⟩
      | plain kind content => exact absurd hkind hformed.2.1
  · rename_i hutf8 hclassRef
    refine ((accepts_pass kind.width).bind fun _ => accepts_pure Slot.other).congr
      fun bytes slot => ?_
    constructor
    · rintro ⟨_, content, _, rfl, hlength, rfl, rfl⟩
      refine ⟨.plain kind content, ⟨hutf8, hclassRef, hlength⟩, rfl, by simp [Constant.content], ?_⟩
      exact if_neg hnarrow
    · rintro ⟨constant, hformed, rfl, rfl, hslots⟩
      cases constant with
      | utf8 => exact absurd rfl hutf8
      | classRef => exact absurd rfl hclassRef
      | plain kind content =>
        obtain rfl : Slot.other = slot := by
          simpa [Constant.slots, show kind.isWide = false by simpa [Constant.kind] using hnarrow]
            using hslots
        exact ⟨(), content, [], by simp [Constant.content], hformed.2.2, rfl, rfl⟩

/-- Whether bytes are those of well-formed constants that fill a number of slots. -/
def FilledBy (room : Nat) (bytes : Bytes) (constants : List Constant) : Prop :=
  (∀ constant ∈ constants, constant.WellFormed) ∧ (slotsOf constants).length = room ∧
    bytes = constants.flatMap Constant.encode

/-- No constants fill no slots. -/
theorem filledBy_zero_iff {bytes : Bytes} {constants : List Constant} :
    FilledBy 0 bytes constants ↔ constants = [] ∧ bytes = [] := by
  constructor
  · rintro ⟨-, hslots, rfl⟩
    cases constants with
    | nil => exact ⟨rfl, rfl⟩
    | cons constant rest =>
      cases constant <;> simp [slotsOf, Constant.slots] at hslots
      split at hslots <;> simp at hslots
  · rintro ⟨rfl, rfl⟩
    exact ⟨by simp, rfl, rfl⟩

/-- Where slots are left, the bytes begin with a constant, and further constants fill the
slots that it leaves. -/
theorem filledBy_succ_iff {room : Nat} {bytes : Bytes} {constants : List Constant} :
    FilledBy (room + 1) bytes constants ↔
      ∃ constant rest back left, constants = constant :: rest ∧ constant.WellFormed ∧
        bytes = constant.kind.tag :: (constant.content ++ back) ∧
        constant.slots.length + left = room + 1 ∧ FilledBy left back rest := by
  constructor
  · rintro ⟨hformed, hslots, rfl⟩
    cases constants with
    | nil => simp [slotsOf] at hslots
    | cons constant rest =>
      obtain ⟨hconstant, hrest⟩ := List.forall_mem_cons.mp hformed
      refine ⟨constant, rest, _, (slotsOf rest).length, rfl, hconstant, ?_, ?_, hrest, rfl, rfl⟩
      · rw [List.flatMap_cons, Constant.encode_eq, List.cons_append]
      · simpa [slotsOf] using hslots
  · rintro ⟨constant, rest, back, left, rfl, hconstant, rfl, hslots, hrest, hleft, rfl⟩
    refine ⟨List.forall_mem_cons.mpr ⟨hconstant, hrest⟩, ?_, ?_⟩
    · simpa [slotsOf, ← hleft] using hslots
    · rw [List.flatMap_cons, Constant.encode_eq, List.cons_append]

/-- The pools that constants make out of a pool when they fill a number of slots. -/
def FillsTo (pool : ConstantPool) (room : Nat) (bytes : Bytes) (result : ConstantPool) : Prop :=
  ∃ constants, FilledBy room bytes constants ∧ result = ⟨pool.slots ++ slotsOf constants⟩

/-- Slots that are left are not filled by nothing. -/
theorem not_fillsTo_nil (pool : ConstantPool) (room : Nat) (result : ConstantPool) :
    ¬FillsTo pool (room + 1) [] result := by
  rintro ⟨constants, hfilled, -⟩
  obtain ⟨_, _, _, _, _, _, hbytes, -⟩ := filledBy_succ_iff.mp hfilled
  cases hbytes

/-- Reading the content of one constant and then filling the slots that it leaves fills all
slots with what follows the tag. Constants of one and of two slots are both read this way. -/
theorem accepts_fill_of_content {α : Type} {reader : Reader α} {kind : ConstantKind}
    {slots : α → List Slot} {pool : ConstantPool} {grown : α → ConstantPool} {room left : Nat}
    (hcontent : reader.Accepts fun bytes value => ∃ constant : Constant,
      constant.WellFormed ∧ constant.kind = kind ∧ constant.content = bytes ∧
        constant.slots = slots value)
    (hslots : ∀ constant : Constant, constant.kind = kind → ∃ value, constant.slots = slots value)
    (hgrown : ∀ value, (grown value).slots = pool.slots ++ slots value)
    (hleft : ∀ value, (slots value).length + left = room + 1)
    (hfill : ∀ pool, (fill left pool).Accepts (FillsTo pool left)) :
    (reader >>= fun value => fill left (grown value)).Accepts
      fun bytes result => FillsTo pool (room + 1) (kind.tag :: bytes) result := by
  refine (hcontent.bind fun value => hfill (grown value)).congr fun bytes result => ?_
  constructor
  · rintro ⟨value, _, back, rfl, ⟨constant, hformed, rfl, rfl, hvalue⟩, rest, hrest, rfl⟩
    refine ⟨constant :: rest, filledBy_succ_iff.mpr ?_, ?_⟩
    · exact ⟨constant, rest, back, left, rfl, hformed, rfl, by rw [hvalue, hleft], hrest⟩
    · rw [hgrown, ← hvalue]
      exact congrArg mk (Array.toList_inj.mp (by simp [slotsOf]))
  · rintro ⟨constants, hfilled, rfl⟩
    obtain ⟨constant, rest, back, left', rfl, hformed, hbytes, hsum, hrest⟩ :=
      filledBy_succ_iff.mp hfilled
    obtain ⟨htag, rfl⟩ := List.cons.inj hbytes
    obtain rfl := ConstantKind.tag_inj.mp htag
    obtain ⟨value, hvalue⟩ := hslots constant rfl
    obtain rfl : left' = left := by
      have hroom := hleft value
      rw [← hvalue] at hroom
      omega
    refine ⟨value, _, back, rfl, ⟨constant, hformed, rfl, rfl, hvalue⟩, rest, hrest, ?_⟩
    rw [hgrown, ← hvalue]
    exact congrArg mk (Array.toList_inj.mp (by simp [slotsOf]))

/-- Filling slots reads well-formed constants that fill exactly those slots. -/
theorem accepts_fill (room : Nat) (pool : ConstantPool) :
    (fill room pool).Accepts (FillsTo pool room) := by
  induction room using Nat.strongRecOn generalizing pool with
  | ind room ih =>
    cases room with
    | zero =>
      refine (accepts_pure pool).congr fun bytes result => ?_
      constructor
      · rintro ⟨rfl, rfl⟩
        exact ⟨[], filledBy_zero_iff.mpr ⟨rfl, rfl⟩, by simp [slotsOf]⟩
      · rintro ⟨constants, hfilled, rfl⟩
        obtain ⟨rfl, rfl⟩ := filledBy_zero_iff.mp hfilled
        simp [slotsOf]
    | succ room =>
      rw [fill]
      refine Accepts.tagged (not_fillsTo_nil pool room) fun tag => ?_
      cases hkind : ConstantKind.ofTag? tag with
      | none =>
        refine (accepts_throw _).congr fun bytes result => ?_
        simp only [false_iff]
        rintro ⟨constants, hfilled, -⟩
        obtain ⟨constant, _, _, _, _, _, hbytes, -⟩ := filledBy_succ_iff.mp hfilled
        obtain ⟨rfl, -⟩ := List.cons.inj hbytes
        simp [ConstantKind.ofTag?_tag] at hkind
      | some kind =>
        obtain rfl := ConstantKind.ofTag?_eq_some_iff.mp hkind
        by_cases hwide : kind.isWide
        · simp only [hwide, if_true]
          cases room with
          | zero =>
            refine (accepts_throw _).congr fun bytes result => ?_
            simp only [false_iff]
            rintro ⟨constants, hfilled, -⟩
            obtain ⟨constant, _, _, _, _, _, hbytes, hsum, -⟩ := filledBy_succ_iff.mp hfilled
            obtain ⟨htag, -⟩ := List.cons.inj hbytes
            have hslots := Constant.slots_of_isWide (ConstantKind.tag_inj.mp htag ▸ hwide)
            simp only [hslots, List.length_cons, List.length_nil] at hsum
            omega
          | succ room =>
            have hcontent : (pass kind.width).Accepts fun bytes (_ : Unit) =>
                ∃ constant : Constant, constant.WellFormed ∧ constant.kind = kind ∧
                  constant.content = bytes ∧ constant.slots = [.other, .unusable] :=
              (accepts_pass kind.width).congr fun _ _ => (Constant.exists_isWide_iff hwide).symm
            exact accepts_fill_of_content hcontent
              (fun constant hkind => ⟨(), Constant.slots_of_isWide (hkind ▸ hwide)⟩)
              (fun _ => by simp [push]) (fun _ => Nat.add_comm 2 room) (ih room (by omega))
        · simp only [hwide]
          exact accepts_fill_of_content (accepts_readBody hwide)
            (fun constant hkind => Constant.slots_of_narrow (hkind ▸ hwide))
            (fun _ => by simp [push]) (fun _ => Nat.add_comm 1 room) (ih room (by omega))

/-- A pool is read exactly from its count of slots and the constants that fill them after
slot zero. -/
theorem accepts_read : read.Accepts fun bytes pool =>
    ∃ (count : UInt16) (constants : List Constant),
      (∀ constant ∈ constants, constant.WellFormed) ∧
      (slotsOf constants).length = count.toNat - 1 ∧
      bytes = Bytes.ofWord16 count ++ constants.flatMap Constant.encode ∧
      pool = ofConstants constants := by
  have hopening (constants : List Constant) :
      (⟨opening.slots ++ slotsOf constants⟩ : ConstantPool) = ofConstants constants :=
    congrArg mk (Array.toList_inj.mp (by simp [opening]))
  refine (accepts_word16.bind fun count => accepts_fill (count.toNat - 1) opening).congr
    fun bytes pool => ?_
  constructor
  · rintro ⟨count, _, _, rfl, rfl, constants, ⟨hformed, hslots, rfl⟩, rfl⟩
    exact ⟨count, constants, hformed, hslots, rfl, hopening constants⟩
  · rintro ⟨count, constants, hformed, hslots, rfl, rfl⟩
    exact ⟨count, _, _, rfl, rfl, constants, ⟨hformed, hslots, rfl⟩, (hopening constants).symm⟩

end ConstantPool

end JarCensus.ClassFile
