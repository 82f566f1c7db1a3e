import JarCensus.ClassFile.Encoding.Table
import JarCensus.Proofs.ClassFile.Acceptance
import Mathlib.Data.List.Basic

/-!
# Reading annotation tables

Element values form a tree, and a value is passed over exactly when it is well formed and
low enough for the levels that are left. A table is read exactly when its annotations fill
the body of its attribute.
-/

namespace JarCensus.ClassFile

open Reader

namespace ElementForm

/-- The code of a tag is the code of the character that decides its form. -/
theorem toNat_of_charOfNat {tag : UInt8} {c : Char} (h : Char.ofNat tag.toNat = c) :
    tag.toNat = c.toNat := by
  have htag := tag.toNat_lt
  have hvalid : tag.toNat.isValidChar := Or.inl (by omega)
  rw [← h, Char.ofNat, dif_pos hvalid]
  rfl

/-- Annotations inside values are announced by an at sign. -/
theorem ofTag?_eq_nested_iff {tag : UInt8} : ofTag? tag = some .nested ↔ tag = 64 := by
  constructor
  · intro h
    unfold ofTag? at h
    split at h
    all_goals cases h
    exact UInt8.toNat_inj.mp (toNat_of_charOfNat ‹_›)
  · rintro rfl
    rfl

/-- Lists of values are announced by an opening bracket. -/
theorem ofTag?_eq_array_iff {tag : UInt8} : ofTag? tag = some .array ↔ tag = 91 := by
  constructor
  · intro h
    unfold ofTag? at h
    split at h
    all_goals cases h
    exact UInt8.toNat_inj.mp (toNat_of_charOfNat ‹_›)
  · rintro rfl
    rfl

end ElementForm

namespace ElementValue

/-- The bytes of pairs are the bytes of each pair in turn. -/
theorem encodePairs_eq (pairs : List (UInt16 × ElementValue)) :
    encodePairs pairs = pairs.flatMap encodePair := by
  induction pairs with
  | nil => rfl
  | cons pair rest ih => rw [encodePairs, ih, List.flatMap_cons]

/-- The bytes of values are the bytes of each value in turn. -/
theorem encodeValues_eq (values : List ElementValue) :
    encodeValues values = values.flatMap encode := by
  induction values with
  | nil => rfl
  | cons value rest ih => rw [encodeValues, ih, List.flatMap_cons]

/-- Pairs are well formed when each of them is. -/
theorem pairsWellFormed_iff {pairs : List (UInt16 × ElementValue)} :
    PairsWellFormed pairs ↔ ∀ pair ∈ pairs, PairWellFormed pair := by
  induction pairs with
  | nil => simp [PairsWellFormed]
  | cons pair rest ih => rw [PairsWellFormed, ih, List.forall_mem_cons]

/-- Values are well formed when each of them is. -/
theorem valuesWellFormed_iff {values : List ElementValue} :
    ValuesWellFormed values ↔ ∀ value ∈ values, WellFormed value := by
  induction values with
  | nil => simp [ValuesWellFormed]
  | cons value rest ih => rw [ValuesWellFormed, ih, List.forall_mem_cons]

/-- Pairs are as low as each of their values is. -/
theorem heightOfPairs_le_iff {pairs : List (UInt16 × ElementValue)} {levels : Nat} :
    heightOfPairs pairs ≤ levels ↔ ∀ pair ∈ pairs, heightOfPair pair < levels := by
  induction pairs with
  | nil => simp [heightOfPairs]
  | cons pair rest ih => rw [heightOfPairs, Nat.max_le, ih, List.forall_mem_cons, Nat.succ_le_iff]

/-- Values are as low as each of them is. -/
theorem heightOfValues_le_iff {values : List ElementValue} {levels : Nat} :
    heightOfValues values ≤ levels ↔ ∀ value ∈ values, height value < levels := by
  induction values with
  | nil => simp [heightOfValues]
  | cons value rest ih =>
    rw [heightOfValues, Nat.max_le, ih, List.forall_mem_cons, Nat.succ_le_iff]

/-- Whether bytes are those of a well-formed value that needs fewer than a number of levels
below it. -/
def Spelled (levels : Nat) (bytes : Bytes) : Prop :=
  ∃ value : ElementValue, value.WellFormed ∧ value.height < levels ∧ bytes = value.encode

/-- Whether a pair is well formed and its value needs fewer than a number of levels. -/
def PairFits (levels : Nat) (pair : UInt16 × ElementValue) : Prop :=
  PairWellFormed pair ∧ heightOfPair pair < levels

/-- No value stands where no level is left. -/
theorem not_spelled_zero (bytes : Bytes) : ¬Spelled 0 bytes := by
  rintro ⟨value, -, hheight, -⟩
  exact Nat.not_lt_zero _ hheight

/-- Every value begins with a byte. -/
theorem not_spelled_nil (levels : Nat) : ¬Spelled levels [] := by
  rintro ⟨value, -, -, hbytes⟩
  cases value <;> simp [encode] at hbytes

/-- The tag of a value has a form. -/
theorem ofTag?_ne_none_of_spelled {levels : Nat} {tag : UInt8} {bytes : Bytes}
    (h : Spelled levels (tag :: bytes)) : ElementForm.ofTag? tag ≠ none := by
  obtain ⟨value, hformed, -, hbytes⟩ := h
  cases value with
  | words tag' content =>
    obtain ⟨rfl, rfl⟩ := by simpa [encode] using hbytes
    obtain ⟨count, hform, -⟩ := by simpa [WellFormed] using hformed
    simp [hform]
  | nested type pairs =>
    obtain ⟨rfl, -⟩ := by simpa [encode] using hbytes
    simp [ElementForm.ofTag?_eq_nested_iff.mpr]
  | array values =>
    obtain ⟨rfl, -⟩ := by simpa [encode] using hbytes
    simp [ElementForm.ofTag?_eq_array_iff.mpr]

/-- Behind a tag that announces words stand bytes of their number. -/
theorem spelled_words_iff {levels count : Nat} {tag : UInt8} {bytes : Bytes}
    (hform : ElementForm.ofTag? tag = some (.words count)) :
    Spelled (levels + 1) (tag :: bytes) ↔ bytes.length = 2 * count := by
  constructor
  · rintro ⟨value, hformed, -, hbytes⟩
    cases value with
    | words tag' content =>
      obtain ⟨rfl, rfl⟩ := by simpa [encode] using hbytes
      obtain ⟨count', hform', hlength⟩ := by simpa [WellFormed] using hformed
      obtain rfl : count = count' := by simpa [hform] using hform'
      exact hlength
    | nested type pairs =>
      obtain ⟨rfl, -⟩ := by simpa [encode] using hbytes
      simp [ElementForm.ofTag?_eq_nested_iff.mpr] at hform
    | array values =>
      obtain ⟨rfl, -⟩ := by simpa [encode] using hbytes
      simp [ElementForm.ofTag?_eq_array_iff.mpr] at hform
  · intro hlength
    refine ⟨words tag bytes, ?_, ?_, ?_⟩
    · rw [WellFormed]
      exact ⟨count, hform, hlength⟩
    · simp [height]
    · rw [encode]

/-- Behind an at sign stand the type of an annotation and its counted pairs, one level lower. -/
theorem spelled_nested_iff {levels : Nat} {bytes : Bytes} :
    Spelled (levels + 1) (64 :: bytes) ↔ ∃ (type : UInt16) (pairs : List (UInt16 × ElementValue)),
      pairs.length < 65536 ∧ (∀ pair ∈ pairs, PairFits levels pair) ∧
        bytes = Bytes.ofWord16 type ++
          (Bytes.ofWord16 (.ofNat pairs.length) ++ pairs.flatMap encodePair) := by
  constructor
  · rintro ⟨value, hformed, hheight, hbytes⟩
    cases value with
    | words tag content =>
      obtain ⟨rfl, rfl⟩ := by simpa [encode] using hbytes
      obtain ⟨count, hform, -⟩ := by simpa [WellFormed] using hformed
      simp [ElementForm.ofTag?_eq_nested_iff.mpr] at hform
    | nested type pairs =>
      rw [WellFormed, pairsWellFormed_iff] at hformed
      rw [height, Nat.lt_succ_iff, heightOfPairs_le_iff] at hheight
      refine ⟨type, pairs, hformed.1, fun pair hpair => ?_, ?_⟩
      · exact ⟨hformed.2 pair hpair, hheight pair hpair⟩
      · simpa [encode, encodePairs_eq] using hbytes
    | array values => simp [encode] at hbytes
  · rintro ⟨type, pairs, hlength, hpairs, rfl⟩
    refine ⟨nested type pairs, ?_, ?_, ?_⟩
    · rw [WellFormed, pairsWellFormed_iff]
      exact ⟨hlength, fun pair hpair => (hpairs pair hpair).1⟩
    · rw [height, Nat.lt_succ_iff, heightOfPairs_le_iff]
      exact fun pair hpair => (hpairs pair hpair).2
    · simp [encode, encodePairs_eq]

/-- Behind an opening bracket stand counted values, one level lower. -/
theorem spelled_array_iff {levels : Nat} {bytes : Bytes} :
    Spelled (levels + 1) (91 :: bytes) ↔ ∃ values : List ElementValue, values.length < 65536 ∧
      (∀ value ∈ values, value.WellFormed ∧ value.height < levels) ∧
        bytes = Bytes.ofWord16 (.ofNat values.length) ++ values.flatMap encode := by
  constructor
  · rintro ⟨value, hformed, hheight, hbytes⟩
    cases value with
    | words tag content =>
      obtain ⟨rfl, rfl⟩ := by simpa [encode] using hbytes
      obtain ⟨count, hform, -⟩ := by simpa [WellFormed] using hformed
      simp [ElementForm.ofTag?_eq_array_iff.mpr] at hform
    | nested type pairs => simp [encode] at hbytes
    | array values =>
      rw [WellFormed, valuesWellFormed_iff] at hformed
      rw [height, Nat.lt_succ_iff, heightOfValues_le_iff] at hheight
      refine ⟨values, hformed.1, fun value hvalue => ?_, ?_⟩
      · exact ⟨hformed.2 value hvalue, hheight value hvalue⟩
      · simpa [encode, encodeValues_eq] using hbytes
  · rintro ⟨values, hlength, hvalues, rfl⟩
    refine ⟨array values, ?_, ?_, ?_⟩
    · rw [WellFormed, valuesWellFormed_iff]
      exact ⟨hlength, fun value hvalue => (hvalues value hvalue).1⟩
    · rw [height, Nat.lt_succ_iff, heightOfValues_le_iff]
      exact fun value hvalue => (hvalues value hvalue).2
    · simp [encode, encodeValues_eq]

end ElementValue

/-- A pair of any word and a value is passed over when the value is. -/
theorem accepts_pair {levels : Nat}
    (hvalue : (passValue levels).Accepts fun bytes _ => ElementValue.Spelled levels bytes) :
    (pass 2 >>= fun _ => passValue levels).Accepts fun bytes _ =>
      ∃ pair, ElementValue.PairFits levels pair ∧ bytes = ElementValue.encodePair pair := by
  refine (accepts_pass_word.bind fun _ => hvalue).congr fun bytes _ => ?_
  constructor
  · rintro ⟨_, _, _, rfl, ⟨name, rfl⟩, value, hformed, hheight, rfl⟩
    exact ⟨(name, value), ⟨hformed, hheight⟩, rfl⟩
  · rintro ⟨⟨name, value⟩, ⟨hformed, hheight⟩, rfl⟩
    exact ⟨(), _, _, rfl, ⟨name, rfl⟩, value, hformed, hheight, rfl⟩

/-- Counted pairs of any word and a value are passed over one by one. -/
theorem accepts_pairs {levels : Nat}
    (hvalue : (passValue levels).Accepts fun bytes _ => ElementValue.Spelled levels bytes) :
    (word16 >>= fun count => times count.toNat do
      pass 2
      passValue levels).Accepts fun bytes _ => ∃ pairs : List (UInt16 × ElementValue),
        pairs.length < 65536 ∧ (∀ pair ∈ pairs, ElementValue.PairFits levels pair) ∧
          bytes = Bytes.ofWord16 (.ofNat pairs.length) ++
            pairs.flatMap ElementValue.encodePair :=
  Accepts.countedTimes (accepts_pair hvalue)

/-- A value is passed over exactly when it is well formed and there are levels left for all
values inside it. -/
theorem accepts_passValue (levels : Nat) :
    (passValue levels).Accepts fun bytes _ => ElementValue.Spelled levels bytes := by
  induction levels with
  | zero =>
    refine (accepts_throw _).congr fun bytes _ => ?_
    simp [ElementValue.not_spelled_zero]
  | succ levels ih =>
    rw [passValue]
    refine Accepts.tagged (fun _ => ElementValue.not_spelled_nil _) fun tag => ?_
    cases hform : ElementForm.ofTag? tag with
    | none =>
      refine (accepts_throw _).congr fun bytes _ => ?_
      simp only [false_iff]
      intro hspelled
      exact ElementValue.ofTag?_ne_none_of_spelled hspelled hform
    | some form =>
      cases form with
      | words count =>
        exact (accepts_pass _).congr fun _ _ => (ElementValue.spelled_words_iff hform).symm
      | nested =>
        obtain rfl := ElementForm.ofTag?_eq_nested_iff.mp hform
        refine (accepts_pass_word.bind fun _ => accepts_pairs ih).congr fun bytes _ => ?_
        rw [ElementValue.spelled_nested_iff]
        constructor
        · rintro ⟨_, _, _, rfl, ⟨type, rfl⟩, pairs, hlength, hpairs, rfl⟩
          exact ⟨type, pairs, hlength, hpairs, rfl⟩
        · rintro ⟨type, pairs, hlength, hpairs, rfl⟩
          exact ⟨(), _, _, rfl, ⟨type, rfl⟩, pairs, hlength, hpairs, rfl⟩
      | array =>
        obtain rfl := ElementForm.ofTag?_eq_array_iff.mp hform
        refine (Accepts.countedTimes (ih.congr fun bytes _ => ?_)).congr fun bytes _ =>
          ElementValue.spelled_array_iff.symm
        exact exists_congr fun value => and_assoc.symm

/-- The type name of an annotation, which is missing when its type is no text of the pool. -/
def TableEntry.names (pool : ConstantPool) (entry : TableEntry) : List String :=
  ((pool.utf8 entry.type).toOption.map nameOfDescriptor).toList

/-- A table lists the type name of each annotation in turn. -/
theorem tableNames_eq (pool : ConstantPool) (table : List TableEntry) :
    tableNames pool table = table.flatMap (TableEntry.names pool) :=
  List.filterMap_eq_flatMap_toList _ _

/-- An annotation that can stand in a table that is read with the names of a pool. -/
def TableEntry.Readable (pool : ConstantPool) (entry : TableEntry) : Prop :=
  (entry.WellFormed ∧ ∃ text, pool.utf8 entry.type = .ok text) ∧ entry.FitsDepth deepestLevel

/-- An annotation is read exactly when its type is a text of the pool and its values are well
formed and stand at levels that are allowed, and its type name is added to the names. -/
theorem accepts_readAnnotated (pool : ConstantPool) (names : Array String) :
    (readAnnotated pool names).Accepts fun bytes result => ∃ entry : TableEntry,
      entry.Readable pool ∧ bytes = entry.encode ∧ result = names ++ entry.names pool := by
  refine (accepts_word16.bind fun type => (accepts_lift (pool.utf8 type)).bind fun descriptor =>
    (accepts_pairs (accepts_passValue (deepestLevel + 1))).bind fun _ =>
      accepts_pure (names.push (nameOfDescriptor descriptor))).congr fun bytes result => ?_
  constructor
  · rintro ⟨type, _, _, rfl, rfl, descriptor, _, _, rfl, ⟨rfl, hdescriptor⟩, _, _, _, rfl,
      ⟨pairs, hlength, hpairs, rfl⟩, rfl, rfl⟩
    refine ⟨⟨type, pairs⟩, ⟨⟨⟨hlength, ?_⟩, descriptor, hdescriptor⟩, ?_⟩, ?_, ?_⟩
    · exact ElementValue.pairsWellFormed_iff.mpr fun pair hpair => (hpairs pair hpair).1
    · exact ElementValue.heightOfPairs_le_iff.mpr fun pair hpair => (hpairs pair hpair).2
    · simp [TableEntry.encode, ElementValue.encodePairs_eq]
    · exact Array.toList_inj.mp (by simp [TableEntry.names, hdescriptor, Except.toOption])
  · rintro ⟨⟨type, pairs⟩, ⟨⟨⟨hlength, hformed⟩, text, htext⟩, hfits⟩, rfl, rfl⟩
    have hpairs : ∀ pair ∈ pairs, ElementValue.PairFits (deepestLevel + 1) pair := fun pair hpair =>
      ⟨ElementValue.pairsWellFormed_iff.mp hformed pair hpair,
        ElementValue.heightOfPairs_le_iff.mp hfits pair hpair⟩
    let counted := Bytes.ofWord16 (.ofNat pairs.length) ++ pairs.flatMap ElementValue.encodePair
    refine ⟨type, _, counted, ?_, rfl, text, [], counted, rfl, ⟨rfl, htext⟩, (), counted, [], ?_,
      ⟨pairs, hlength, hpairs, rfl⟩, rfl, ?_⟩
    · simp [TableEntry.encode, ElementValue.encodePairs_eq, counted]
    · simp
    · exact Array.toList_inj.mp (by simp [TableEntry.names, htext, Except.toOption])

/-- Adding the names of each item in turn adds the names of all items. -/
theorem foldl_append_names {ι : Type} (names : ι → List String) (items : List ι)
    (start : Array String) :
    items.foldl (fun (found : Array String) item => found ++ names item) start =
      start ++ items.flatMap names := by
  induction items generalizing start with
  | nil => exact Array.toList_inj.mp (by simp)
  | cons item rest ih =>
    rw [List.foldl_cons, ih]
    exact Array.toList_inj.mp (by simp)

/-- Reads the counted annotations at the start of a body and adds their type names. -/
def readAnnotations (pool : ConstantPool) (names : Array String) : Reader (Array String) :=
  word16 >>= fun count => Reader.thread (readAnnotated pool) count.toNat names

/-- The annotations at the start of a body are read exactly when they are well formed and their
values stand at levels that are allowed. -/
theorem accepts_annotations (pool : ConstantPool) (names : Array String) :
    (readAnnotations pool names).Accepts fun bytes result => ∃ entries,
      TableWellFormed pool entries ∧ (∀ entry ∈ entries, entry.FitsDepth deepestLevel) ∧
        bytes = encodeTable entries ∧ result = names ++ tableNames pool entries := by
  refine (Accepts.counted (accepts_readAnnotated pool) names).congr fun bytes result => ?_
  simp only [foldl_append_names, ← tableNames_eq, TableEntry.Readable, TableWellFormed, and_assoc,
    forall_and]
  rfl

/-- A table is read as its annotations, which have to fill the body. -/
theorem readTable_eq (pool : ConstantPool) (body : Cursor) (names : Array String) :
    readTable pool body names = (readAnnotations pool names body >>= fun moved =>
      if moved.2.offset - body.offset = body.rest.length then pure moved.1
      else throw (.shortTable body.rest.length (moved.2.offset - body.offset))) := by
  simp only [readTable, readAnnotations, bind, StateT.bind, Except.bind]
  cases word16 body <;> rfl

/-- A table is read exactly when well-formed annotations fill its body, and their type names
are added to the names in turn. -/
theorem readTable_eq_ok_iff {pool : ConstantPool} {body : Cursor} {names result : Array String} :
    readTable pool body names = .ok result ↔ ∃ entries, TableWellFormed pool entries ∧
      (∀ entry ∈ entries, entry.FitsDepth deepestLevel) ∧ body.rest = encodeTable entries ∧
        result = names ++ tableNames pool entries := by
  have haccepts := accepts_annotations pool names body
  rw [readTable_eq]
  constructor
  · intro h
    cases hfound : readAnnotations pool names body with
    | error fault => simp [hfound, bind, Except.bind] at h
    | ok found =>
      obtain ⟨found, finish⟩ := found
      obtain ⟨bytes, ⟨entries, hformed, hfits, rfl, rfl⟩, hrest, hoffset⟩ :=
        (haccepts ..).mp hfound
      simp only [hfound, bind, Except.bind] at h
      split at h
      · rename_i hfull
        obtain rfl := by simpa [pure, Except.pure] using h
        have hlength := congrArg List.length hrest
        rw [List.length_append] at hlength
        have hend : finish.rest = [] := List.length_eq_zero_iff.mp (by omega)
        exact ⟨entries, hformed, hfits, by simpa [hend] using hrest, rfl⟩
      · simp [throw, throwThe, MonadExceptOf.throw] at h
  · rintro ⟨entries, hformed, hfits, hrest, rfl⟩
    let finish : Cursor := ⟨body.offset + body.rest.length, []⟩
    have hfound : readAnnotations pool names body =
        .ok (names ++ tableNames pool entries, finish) :=
      (haccepts ..).mpr ⟨_, ⟨entries, hformed, hfits, rfl, rfl⟩, by simpa [finish] using hrest,
        by rw [← hrest]⟩
    simp [hfound, finish, bind, Except.bind, pure, Except.pure]

end JarCensus.ClassFile
