import JarCensus.Proofs.ClassFile.Bounds
import JarCensus.Proofs.ClassFile.Prefix

/-!
# Faults of annotation tables

A table can be cut short, leave bytes of its body over, or have a fault in bytes that are
there: an unknown tag, a value below the deepest level, or a type that is no text. In reading
order everything before such a fault is well formed.
-/

namespace JarCensus.ClassFile

open Reader

/-- A list with an item that fails a condition has a first such item. -/
theorem exists_first {ι : Type} {P : ι → Prop} {items : List ι} (h : ¬∀ item ∈ items, P item) :
    ∃ done item rest, items = done ++ item :: rest ∧ (∀ item ∈ done, P item) ∧ ¬P item := by
  classical
  have hsome : (items.find? fun item => !decide (P item)).isSome := by simpa using h
  obtain ⟨item, hitem⟩ := Option.isSome_iff_exists.mp hsome
  obtain ⟨hfails, done, rest, rfl, hdone⟩ := List.find?_eq_some_iff_append.mp hitem
  exact ⟨done, item, rest, rfl, by simpa using hdone, by simpa using hfails⟩

namespace ElementValue

/-- That bytes from the start of a value, for which a number of levels is left, end at its first
fault. The pairs and values that are done before the fault are well formed and low enough, and
fewer than their list counts. -/
inductive FailsAt : Nat → Bytes → Fault → Prop
  /-- No level is left for the value. -/
  | tooDeep : FailsAt 0 [] (.tooDeep deepestLevel)
  /-- The tag of the value is unknown. -/
  | unknown {levels : Nat} {tag : UInt8} (htag : ElementForm.ofTag? tag = none) :
      FailsAt (levels + 1) [tag] (.unknownElement tag)
  /-- The fault is in a pair of an annotation. -/
  | nested {levels : Nat} {type count name : UInt16} {done : List (UInt16 × ElementValue)}
      {rest : Bytes} {fault : Fault} (hroom : done.length < count.toNat)
      (hdone : ∀ pair ∈ done, PairFits levels pair) (hrest : FailsAt levels rest fault) :
      FailsAt (levels + 1) (64 :: (Bytes.ofWord16 type ++ (Bytes.ofWord16 count ++
        (done.flatMap encodePair ++ (Bytes.ofWord16 name ++ rest))))) fault
  /-- The fault is in a value of a list. -/
  | array {levels : Nat} {count : UInt16} {done : List ElementValue} {rest : Bytes} {fault : Fault}
      (hroom : done.length < count.toNat)
      (hdone : ∀ value ∈ done, value.WellFormed ∧ value.height < levels)
      (hrest : FailsAt levels rest fault) :
      FailsAt (levels + 1) (91 :: (Bytes.ofWord16 count ++ (done.flatMap encode ++ rest))) fault

/-- That bytes from the count of pairs, for whose values a number of levels is left, end at their
first fault. -/
def PairsFailAt (levels : Nat) (bytes : Bytes) (fault : Fault) : Prop :=
  ∃ (count name : UInt16) (done : List (UInt16 × ElementValue)) (rest : Bytes),
    done.length < count.toNat ∧ (∀ pair ∈ done, PairFits levels pair) ∧
      bytes = Bytes.ofWord16 count ++ (done.flatMap encodePair ++ (Bytes.ofWord16 name ++ rest)) ∧
        FailsAt levels rest fault

/-- Where no level is left, the fault comes before any byte. -/
theorem failsAt_zero_iff {bytes : Bytes} {fault : Fault} :
    FailsAt 0 bytes fault ↔ bytes = [] ∧ fault = .tooDeep deepestLevel := by
  constructor
  · rintro ⟨⟩
    exact ⟨rfl, rfl⟩
  · rintro ⟨rfl, rfl⟩
    exact .tooDeep

/-- Where levels are left, no fault comes before the tag. -/
theorem not_failsAt_nil (levels : Nat) (fault : Fault) : ¬FailsAt (levels + 1) [] fault := by
  rintro ⟨⟩

/-- Behind an unknown tag nothing is read. -/
theorem failsAt_unknown_iff {levels : Nat} {tag : UInt8} {bytes : Bytes} {fault : Fault}
    (htag : ElementForm.ofTag? tag = none) :
    FailsAt (levels + 1) (tag :: bytes) fault ↔ bytes = [] ∧ fault = .unknownElement tag := by
  constructor
  · rintro ⟨⟩
    · exact ⟨rfl, rfl⟩
    · cases htag
    · cases htag
  · rintro ⟨rfl, rfl⟩
    exact .unknown htag

/-- Words have no fault. -/
theorem not_failsAt_words {levels count : Nat} {tag : UInt8} {bytes : Bytes} {fault : Fault}
    (htag : ElementForm.ofTag? tag = some (.words count)) :
    ¬FailsAt (levels + 1) (tag :: bytes) fault := by
  rintro ⟨⟩
  · rename_i hunknown
    rw [htag] at hunknown
    cases hunknown
  · cases htag
  · cases htag

/-- The fault of an annotation is in its pairs. -/
theorem failsAt_nested_iff {levels : Nat} {bytes : Bytes} {fault : Fault} :
    FailsAt (levels + 1) (64 :: bytes) fault ↔ ∃ (type : UInt16) (rest : Bytes),
      bytes = Bytes.ofWord16 type ++ rest ∧ PairsFailAt levels rest fault := by
  constructor
  · rintro ⟨⟩
    · rename_i htag
      cases htag
    · rename_i type count name done rest hroom hdone hrest
      exact ⟨type, _, rfl, count, name, done, rest, hroom, hdone, rfl, hrest⟩
  · rintro ⟨type, _, rfl, count, name, done, rest, hroom, hdone, rfl, hrest⟩
    exact .nested hroom hdone hrest

/-- The fault of a list is in its values. -/
theorem failsAt_array_iff {levels : Nat} {bytes : Bytes} {fault : Fault} :
    FailsAt (levels + 1) (91 :: bytes) fault ↔
      ∃ (count : UInt16) (done : List ElementValue) (rest : Bytes), done.length < count.toNat ∧
        (∀ value ∈ done, value.WellFormed ∧ value.height < levels) ∧
          bytes = Bytes.ofWord16 count ++ (done.flatMap encode ++ rest) ∧
            FailsAt levels rest fault := by
  constructor
  · rintro ⟨⟩
    · rename_i htag
      cases htag
    · rename_i count done rest hroom hdone hrest
      exact ⟨count, done, rest, hroom, hdone, rfl, hrest⟩
  · rintro ⟨count, done, rest, hroom, hdone, rfl, hrest⟩
    exact .array hroom hdone hrest

/-- Pairs one of whose values is too high for the levels lead to where no level is left. -/
theorem exists_pairsFailAt_tooDeep {levels : Nat} {pairs : List (UInt16 × ElementValue)}
    (hcount : pairs.length < 65536) (hformed : PairsWellFormed pairs)
    (hheight : ¬heightOfPairs pairs ≤ levels)
    (hvalue : ∀ value : ElementValue, value.WellFormed → levels ≤ value.height →
      ∃ front back, value.encode = front ++ back ∧ FailsAt levels front (.tooDeep deepestLevel)) :
    ∃ front back, Bytes.ofWord16 (.ofNat pairs.length) ++ encodePairs pairs = front ++ back ∧
      PairsFailAt levels front (.tooDeep deepestLevel) := by
  rw [heightOfPairs_le_iff] at hheight
  rw [pairsWellFormed_iff] at hformed
  obtain ⟨done, ⟨name, value⟩, rest, rfl, hdone, hhigh⟩ := exists_first hheight
  have hformedDone : ∀ pair ∈ done, PairFits levels pair := fun pair hpair =>
    ⟨hformed pair (List.mem_append_left _ hpair), hdone pair hpair⟩
  have hformedValue : value.WellFormed := hformed (name, value) (by simp)
  obtain ⟨front, back, hfront, hfails⟩ := hvalue value hformedValue (Nat.le_of_not_lt hhigh)
  have hroom : done.length < (UInt16.ofNat (done ++ (name, value) :: rest).length).toNat := by
    rw [UInt16.toNat_ofNat_of_lt' hcount, List.length_append, List.length_cons]
    omega
  refine ⟨_, back ++ rest.flatMap encodePair, ?_, _, name, done, front, hroom, hformedDone, rfl,
    hfails⟩
  simp [encodePairs_eq, encodePair, hfront]

/-- A well-formed value that is too high for the levels leads to where no level is left. -/
theorem exists_failsAt_tooDeep {levels : Nat} {value : ElementValue} (hformed : value.WellFormed)
    (hheight : levels ≤ value.height) :
    ∃ front back, value.encode = front ++ back ∧ FailsAt levels front (.tooDeep deepestLevel) := by
  -- On the levels: of the values inside, only the first one that is too high matters.
  induction levels generalizing value with
  | zero => exact ⟨[], value.encode, rfl, .tooDeep⟩
  | succ levels ih =>
    cases value with
    | words tag content => simp [height] at hheight
    | nested type pairs =>
      rw [WellFormed] at hformed
      rw [height, Nat.succ_le_iff, ← Nat.not_le] at hheight
      obtain ⟨front, back, hfront, hfails⟩ :=
        exists_pairsFailAt_tooDeep hformed.1 hformed.2 hheight fun _ => ih
      refine ⟨64 :: (Bytes.ofWord16 type ++ front), back, ?_,
        failsAt_nested_iff.mpr ⟨type, front, rfl, hfails⟩⟩
      rw [encode, List.cons_append, List.cons_append, List.cons_append, List.append_assoc, hfront,
        List.append_assoc]
    | array values =>
      rw [WellFormed, valuesWellFormed_iff] at hformed
      rw [height, Nat.succ_le_iff, ← Nat.not_le, heightOfValues_le_iff] at hheight
      obtain ⟨done, high, rest, rfl, hdone, hhigh⟩ := exists_first hheight
      have hdoneFits : ∀ value ∈ done, value.WellFormed ∧ value.height < levels :=
        fun value hvalue => ⟨hformed.2 value (List.mem_append_left _ hvalue), hdone value hvalue⟩
      obtain ⟨front, back, hfront, hfails⟩ := ih (hformed.2 high (by simp)) (Nat.le_of_not_lt hhigh)
      have hroom : done.length < (UInt16.ofNat (done ++ high :: rest).length).toNat := by
        rw [UInt16.toNat_ofNat_of_lt' hformed.1, List.length_append, List.length_cons]
        omega
      refine ⟨_, back ++ rest.flatMap encode, ?_, .array hroom hdoneFits hfails⟩
      simp [encode, encodeValues_eq, hfront]

end ElementValue

/-- A pair is refused where its value is. -/
theorem refuses_pair {levels : Nat}
    (hvalue : (passValue levels).Refuses (ElementValue.FailsAt levels)) :
    (pass 2 >>= fun _ => passValue levels).Refuses fun bytes fault =>
      ∃ (name : UInt16) (rest : Bytes), bytes = Bytes.ofWord16 name ++ rest ∧
        ElementValue.FailsAt levels rest fault := by
  refine ((refuses_pass 2).bind accepts_pass_word fun _ => hvalue).congr fun bytes fault => ?_
  constructor
  · rintro (hnone | ⟨_, _, rest, rfl, ⟨name, rfl⟩, hrest⟩)
    · exact hnone.elim
    · exact ⟨name, rest, rfl, hrest⟩
  · rintro ⟨name, rest, rfl, hrest⟩
    exact .inr ⟨(), _, rest, rfl, ⟨name, rfl⟩, hrest⟩

/-- Counted pairs are refused at the first pair that is. -/
theorem refuses_pairs {levels : Nat}
    (hvalue : (passValue levels).Refuses (ElementValue.FailsAt levels)) :
    (word16 >>= fun count => times count.toNat do
      pass 2
      passValue levels).Refuses (ElementValue.PairsFailAt levels) := by
  refine (Refuses.countedTimes (accepts_pair (accepts_passValue levels))
    (refuses_pair hvalue)).congr fun bytes fault => ?_
  constructor
  · rintro ⟨count, done, _, hroom, hdone, rfl, name, rest, rfl, hrest⟩
    exact ⟨count, name, done, rest, hroom, hdone, rfl, hrest⟩
  · rintro ⟨count, name, done, rest, hroom, hdone, rfl, hrest⟩
    exact ⟨count, done, _, hroom, hdone, rfl, name, rest, rfl, hrest⟩

/-- A value is refused exactly at its first unknown tag or its first value without a level. -/
theorem refuses_passValue (levels : Nat) :
    (passValue levels).Refuses (ElementValue.FailsAt levels) := by
  induction levels with
  | zero => exact (refuses_throw _).congr fun _ _ => ElementValue.failsAt_zero_iff.symm
  | succ levels ih =>
    rw [passValue]
    refine Refuses.tagged (ElementValue.not_failsAt_nil levels) fun tag => ?_
    cases hform : ElementForm.ofTag? tag with
    | none => exact (refuses_throw _).congr fun _ _ => (ElementValue.failsAt_unknown_iff hform).symm
    | some form =>
      cases form with
      | words count =>
        refine (refuses_pass _).congr fun bytes fault => ?_
        simp [ElementValue.not_failsAt_words hform]
      | nested =>
        obtain rfl := ElementForm.ofTag?_eq_nested_iff.mp hform
        refine ((refuses_pass 2).bind accepts_pass_word fun _ => refuses_pairs ih).congr
          fun bytes fault => ?_
        rw [ElementValue.failsAt_nested_iff]
        constructor
        · rintro (hnone | ⟨_, _, rest, rfl, ⟨type, rfl⟩, hrest⟩)
          · exact hnone.elim
          · exact ⟨type, rest, rfl, hrest⟩
        · rintro ⟨type, rest, rfl, hrest⟩
          exact .inr ⟨(), _, rest, rfl, ⟨type, rfl⟩, hrest⟩
      | array =>
        obtain rfl := ElementForm.ofTag?_eq_array_iff.mp hform
        refine (Refuses.countedTimes ((accepts_passValue levels).congr fun bytes _ => ?_) ih).congr
          fun bytes fault => ElementValue.failsAt_array_iff.symm
        exact exists_congr fun value => and_assoc.symm

/-- That bytes from the type of an annotation end at its first fault: at a type that is no text,
or in the pairs. -/
def TableEntry.FailsAt (pool : ConstantPool) (bytes : Bytes) (fault : Fault) : Prop :=
  ∃ (type : UInt16) (rest : Bytes), bytes = Bytes.ofWord16 type ++ rest ∧
    (rest = [] ∧ pool.utf8 type = .error fault ∨
      (∃ text, pool.utf8 type = .ok text) ∧
        ElementValue.PairsFailAt (deepestLevel + 1) rest fault)

/-- That bytes from the start of a table end at its first fault. The annotations that are done
before the fault can be read, and are fewer than the table counts. -/
def TableFailsAt (pool : ConstantPool) (bytes : Bytes) (fault : Fault) : Prop :=
  ∃ (count : UInt16) (done : List TableEntry) (rest : Bytes), done.length < count.toNat ∧
    (∀ entry ∈ done, entry.Readable pool) ∧
      bytes = Bytes.ofWord16 count ++ (done.flatMap TableEntry.encode ++ rest) ∧
        TableEntry.FailsAt pool rest fault

/-- An annotation is refused at a type that is no text, or in its pairs. -/
theorem refuses_readAnnotated (pool : ConstantPool) (names : Array String) :
    (readAnnotated pool names).Refuses (TableEntry.FailsAt pool) := by
  have hpairs := refuses_pairs (refuses_passValue (deepestLevel + 1))
  have haccepts := accepts_pairs (accepts_passValue (deepestLevel + 1))
  refine (refuses_word16.bind accepts_word16 fun type => (refuses_lift (pool.utf8 type)).bind
    (accepts_lift _) fun descriptor => hpairs.bind haccepts fun _ =>
      refuses_pure (names.push (nameOfDescriptor descriptor))).congr fun bytes fault => ?_
  constructor
  · rintro (hnone | ⟨type, _, rest, rfl, rfl, ⟨rfl, hfault⟩ | ⟨text, _, _, rfl, ⟨rfl, htext⟩,
      hfails | ⟨_, _, _, -, -, hnone⟩⟩⟩)
    · exact hnone.elim
    · exact ⟨type, [], rfl, .inl ⟨rfl, hfault⟩⟩
    · exact ⟨type, _, rfl, .inr ⟨⟨text, htext⟩, hfails⟩⟩
    · exact hnone.elim
  · rintro ⟨type, rest, rfl, ⟨rfl, hfault⟩ | ⟨⟨text, htext⟩, hfails⟩⟩
    · exact .inr ⟨type, _, [], rfl, rfl, .inl ⟨rfl, hfault⟩⟩
    · exact .inr ⟨type, _, rest, rfl, rfl, .inr ⟨text, [], rest, rfl, ⟨rfl, htext⟩, .inl hfails⟩⟩

/-- The annotations of a body are refused exactly at the first fault. -/
theorem refuses_readAnnotations (pool : ConstantPool) (names : Array String) :
    (readAnnotations pool names).Refuses (TableFailsAt pool) :=
  Refuses.counted (accepts_readAnnotated pool) (refuses_readAnnotated pool) names

/-- Element values are passed over promptly. -/
theorem prompt_passValue (levels : Nat) : Prompt (passValue levels) := by
  induction levels with
  | zero => exact prompt_throw _
  | succ levels ih =>
    rw [passValue]
    refine prompt_byte.bind fun tag => ?_
    cases ElementForm.ofTag? tag with
    | none => exact prompt_throw _
    | some form =>
      cases form with
      | words count => exact prompt_pass (2 * count)
      | nested =>
        exact (prompt_pass 2).bind fun _ => Prompt.countedTimes ((prompt_pass 2).bind fun _ => ih)
      | array => exact Prompt.countedTimes ih

/-- The annotations of a body are read promptly. -/
theorem prompt_readAnnotations (pool : ConstantPool) (names : Array String) :
    Prompt (readAnnotations pool names) :=
  prompt_word16.bind fun count => Prompt.thread (fun _ => prompt_word16.bind fun type =>
    (prompt_lift (pool.utf8 type)).bind fun _ =>
      (Prompt.countedTimes ((prompt_pass 2).bind fun _ => prompt_passValue _)).bind fun _ =>
        prompt_pure _) count.toNat names

/-- The annotations of a body are read within its bytes. -/
theorem bounded_readAnnotations (pool : ConstantPool) (names : Array String) :
    Bounded (readAnnotations pool names) :=
  bounded_word16.bind fun count => Bounded.thread (bounded_readAnnotated pool) count.toNat names

section Body

variable {pool : ConstantPool} {offset : Nat} {content : Bytes} {names : Array String}
  {entries : List TableEntry} {fault : Fault}

/-- A fault of the annotations is one of the table. -/
theorem readTable_of_error (h : readAnnotations pool names ⟨offset, content⟩ = .error fault) :
    readTable pool ⟨offset, content⟩ names = .error fault := by
  rw [readTable_eq, h]
  rfl

/-- A table whose bytes end at a first fault has this fault, whatever follows in its body. -/
theorem readTable_of_failsAt {front back : Bytes} (hfault : fault.InBytes)
    (hcontent : content = front ++ back) (hfails : TableFailsAt pool front fault) :
    readTable pool ⟨offset, content⟩ names = .error fault :=
  readTable_of_error ((refuses_readAnnotations pool names _ fault hfault).mpr
    ⟨front, back, hfails, hcontent⟩)

/-- The annotations at the front of a body are read to their end. -/
theorem readAnnotations_of_encodeTable (hformed : TableWellFormed pool entries)
    (hfits : ∀ entry ∈ entries, entry.FitsDepth deepestLevel) (names : Array String) (offset : Nat)
    (extra : Bytes) :
    readAnnotations pool names ⟨offset, encodeTable entries ++ extra⟩ =
      .ok (names ++ tableNames pool entries, ⟨offset + (encodeTable entries).length, extra⟩) :=
  (accepts_annotations pool names ..).mpr ⟨_, ⟨entries, hformed, hfits, rfl, rfl⟩, rfl, rfl⟩

/-- A table that leaves bytes of its body over is reported with both lengths. -/
theorem readTable_overlong {extra : Bytes} (hformed : TableWellFormed pool entries)
    (hfits : ∀ entry ∈ entries, entry.FitsDepth deepestLevel)
    (hcontent : content = encodeTable entries ++ extra) (hextra : extra ≠ []) :
    readTable pool ⟨offset, content⟩ names = .error (.shortTable
      ((encodeTable entries).length + extra.length) (encodeTable entries).length) := by
  subst hcontent
  have hover := List.length_pos_iff.mpr hextra
  have hshort : (encodeTable entries).length ≠ (encodeTable entries).length + extra.length := by
    omega
  rw [readTable_eq, readAnnotations_of_encodeTable hformed hfits]
  simp only [bind, Except.bind, Nat.add_sub_cancel_left, List.length_append, if_neg hshort]
  rfl

/-- A body that is a proper front of a table is cut short, at an offset in the body and with a
request for bytes that the table has. -/
theorem readTable_cut {more : Bytes} (hformed : TableWellFormed pool entries)
    (hfits : ∀ entry ∈ entries, entry.FitsDepth deepestLevel)
    (htable : encodeTable entries = content ++ more) (hmore : more ≠ []) (offset : Nat)
    (names : Array String) :
    ∃ place needed, readTable pool ⟨offset, content⟩ names = .error (.truncated place needed) ∧
      offset ≤ place ∧ place ≤ offset + content.length ∧ 1 ≤ needed ∧
        content.length + needed ≤ (encodeTable entries).length := by
  have hwhole := readAnnotations_of_encodeTable hformed hfits names offset []
  obtain ⟨front, hfront, hsettles⟩ := (prompt_readAnnotations pool names).settles_of_ok hwhole
  obtain rfl : encodeTable entries = front := by simpa using hfront
  have hlength : content.length + more.length = (encodeTable entries).length := by
    rw [htable, List.length_append]
  have hover := List.length_pos_iff.mpr hmore
  obtain ⟨place, needed, hcut, hhigh, hneeded, hfewer⟩ :=
    hsettles.cut content.length (by omega)
  rw [htable, List.take_left] at hcut
  have hbounds := (bounded_readAnnotations pool names).faults hcut
  exact ⟨place, needed, readTable_of_error hcut, hbounds.1, hhigh, hneeded, hfewer⟩

/-- A well-formed table with a value below the deepest level leads to where no level is left. -/
theorem exists_tableFailsAt_tooDeep (hformed : TableWellFormed pool entries)
    (hdeep : ¬∀ entry ∈ entries, entry.FitsDepth deepestLevel) :
    ∃ front back, encodeTable entries = front ++ back ∧
      TableFailsAt pool front (.tooDeep deepestLevel) := by
  obtain ⟨done, entry, rest, rfl, hdone, hhigh⟩ := exists_first hdeep
  obtain ⟨hcount, hentries⟩ := hformed
  obtain ⟨hentry, htype⟩ := hentries entry (by simp)
  obtain ⟨front, back, hfront, hfails⟩ := ElementValue.exists_pairsFailAt_tooDeep hentry.1 hentry.2
    hhigh fun _ => ElementValue.exists_failsAt_tooDeep
  have hreadable : ∀ entry ∈ done, entry.Readable pool := fun entry hentry =>
    ⟨hentries entry (List.mem_append_left _ hentry), hdone entry hentry⟩
  have hroom : done.length < (UInt16.ofNat (done ++ entry :: rest).length).toNat := by
    rw [UInt16.toNat_ofNat_of_lt' hcount, List.length_append, List.length_cons]
    omega
  refine ⟨_, back ++ rest.flatMap TableEntry.encode, ?_, _, done, _, hroom, hreadable, rfl,
    entry.type, front, rfl, .inr ⟨htype, hfails⟩⟩
  have hbytes : entry.encode = Bytes.ofWord16 entry.type ++ (front ++ back) := by
    rw [TableEntry.encode, List.append_assoc, hfront]
  simp [encodeTable, hbytes]

end Body

end JarCensus.ClassFile
