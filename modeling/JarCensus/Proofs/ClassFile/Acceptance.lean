import JarCensus.ClassFile.Cursor
import JarCensus.Proofs.Success

/-!
# Byte strings that readers accept

A reader accepts a language when its successful runs are exactly the runs that take a
byte string of the language off the front of what is left. The languages of sequences
and repetitions follow from those of their parts, so what a reader of a whole format
accepts is assembled in the order in which the reader is written.
-/

namespace JarCensus.ClassFile.Reader

variable {α β ι : Type}

/-- A reader accepts a language of byte strings and values when it succeeds exactly by
taking a byte string of the language off the front, with the value that belongs to it. -/
def Accepts (reader : Reader α) (language : Bytes → α → Prop) : Prop :=
  ∀ cursor value after, reader cursor = .ok (value, after) ↔
    ∃ front, language front value ∧ cursor.rest = front ++ after.rest ∧
      after.offset = cursor.offset + front.length

/-- Languages with the same members are accepted by the same readers. This brings the
language of a sequence into the form in which a format is described. -/
theorem Accepts.congr {reader : Reader α} {language language' : Bytes → α → Prop}
    (h : reader.Accepts language) (hsame : ∀ bytes value, language bytes value ↔
      language' bytes value) : reader.Accepts language' := by
  intro cursor value after
  simp only [← hsame]
  exact h cursor value after

/-- A sequence accepts what its first part accepts followed by what the second part
accepts for the value of the first. -/
theorem Accepts.bind {reader : Reader α} {next : α → Reader β}
    {first : Bytes → α → Prop} {second : α → Bytes → β → Prop}
    (hreader : reader.Accepts first) (hnext : ∀ value, (next value).Accepts (second value)) :
    (reader >>= next).Accepts fun bytes result =>
      ∃ value front back, bytes = front ++ back ∧ first front value ∧
        second value back result := by
  intro cursor result after
  rw [bind_apply_eq_ok_iff]
  constructor
  · rintro ⟨value, middle, hvalue, hresult⟩
    obtain ⟨front, hfront, hrest, hoffset⟩ := (hreader ..).mp hvalue
    obtain ⟨back, hback, hrest', hoffset'⟩ := (hnext ..).mp hresult
    refine ⟨front ++ back, ⟨value, front, back, rfl, hfront, hback⟩, ?_, ?_⟩
    · rw [hrest, hrest', List.append_assoc]
    · rw [hoffset', hoffset, List.length_append]
      omega
  · rintro ⟨_, ⟨value, front, back, rfl, hfront, hback⟩, hrest, hoffset⟩
    let middle : Cursor := ⟨cursor.offset + front.length, back ++ after.rest⟩
    refine ⟨value, middle, ?_, ?_⟩
    · exact (hreader ..).mpr ⟨front, hfront, by rw [hrest, List.append_assoc], rfl⟩
    · refine (hnext ..).mpr ⟨back, hback, rfl, ?_⟩
      rw [hoffset, List.length_append, Nat.add_assoc]

/-- A value that is given without reading belongs to the empty string alone. -/
theorem accepts_pure (value : α) :
    Accepts (pure value : Reader α) fun bytes result => bytes = [] ∧ result = value := by
  intro cursor result after
  have hpure : (pure value : Reader α) cursor = .ok (value, cursor) := rfl
  rw [hpure, Except.ok.injEq, Prod.mk.injEq]
  constructor
  · rintro ⟨rfl, rfl⟩
    exact ⟨[], ⟨rfl, rfl⟩, rfl, rfl⟩
  · rintro ⟨_, ⟨rfl, rfl⟩, hrest, hoffset⟩
    refine ⟨rfl, ?_⟩
    cases cursor
    cases after
    simp_all

/-- A fault accepts nothing. -/
theorem accepts_throw (fault : Fault) :
    Accepts (throw fault : Reader α) fun _ _ => False := by
  intro cursor value after
  simp [throw, throwThe, MonadExceptOf.throw, StateT.lift, bind, Except.bind]

/-- A look-up in what was read before takes no bytes. -/
theorem accepts_lift (found : Except Fault α) :
    Accepts (liftM found : Reader α) fun bytes value => bytes = [] ∧ found = .ok value := by
  cases found with
  | error fault =>
    intro cursor value after
    simp [liftM, monadLift, MonadLift.monadLift, StateT.lift, bind, Except.bind]
  | ok value =>
    refine (accepts_pure value).congr fun bytes result => ?_
    simp [eq_comm]

/-- A condition that is checked without reading restricts what is accepted to the cases in
which it does not find a fault. -/
theorem Accepts.guard {condition : Prop} [Decidable condition] {fault : Fault}
    {next : Reader α} {language : Bytes → α → Prop} (hnext : next.Accepts language) :
    Accepts (if condition then throw fault else next)
      fun bytes value => ¬condition ∧ language bytes value := by
  by_cases h : condition
  · simpa [h] using accepts_throw fault
  · simpa [h] using hnext

/-- Taking bytes accepts every string of their number. -/
theorem accepts_take (count : Nat) :
    (take count).Accepts fun bytes value => value = bytes ∧ bytes.length = count := by
  intro cursor value after
  simp only [take]
  constructor
  · intro h
    split at h
    · rename_i hfits
      rw [Bytes.missing_eq_zero_iff] at hfits
      obtain ⟨rfl, rfl⟩ := by simpa using h
      have hlength : (cursor.rest.take count).length = count := by
        rw [List.length_take]
        omega
      exact ⟨_, ⟨rfl, hlength⟩, by simp, by rw [hlength]⟩
    · simp at h
  · rintro ⟨_, ⟨rfl, rfl⟩, hrest, hoffset⟩
    have hfits : Bytes.missing value.length (value ++ after.rest) = 0 := by
      rw [Bytes.missing_eq_zero_iff]
      simp
    simp [hrest, hfits, ← hoffset]

/-- Passing over bytes accepts every string of their number. -/
theorem accepts_pass (count : Nat) :
    (pass count).Accepts fun bytes _ => bytes.length = count := by
  refine ((accepts_take count).bind fun _ => accepts_pure ()).congr fun bytes _ => ?_
  constructor
  · rintro ⟨_, front, _, rfl, ⟨-, hlength⟩, rfl, -⟩
    simpa using hlength
  · intro hlength
    exact ⟨bytes, bytes, [], by simp, ⟨rfl, hlength⟩, rfl, rfl⟩

/-- Taking a byte accepts the strings of one byte. -/
theorem accepts_byte : byte.Accepts fun bytes value => bytes = [value] := by
  intro cursor value after
  unfold byte
  obtain ⟨offset, rest⟩ := cursor
  obtain ⟨offset', rest'⟩ := after
  cases rest with
  | nil => simp
  | cons first rest =>
    simp only [Except.ok.injEq, Prod.mk.injEq, Cursor.mk.injEq]
    constructor
    · rintro ⟨rfl, rfl, rfl⟩
      exact ⟨[first], rfl, rfl, rfl⟩
    · rintro ⟨_, rfl, hrest, rfl⟩
      obtain ⟨rfl, rfl⟩ := by simpa using hrest
      exact ⟨rfl, rfl, rfl⟩

/-- What begins with a byte that decides how to go on is accepted when, for each byte, the
rest of it is. -/
theorem Accepts.tagged {next : UInt8 → Reader α} {language : Bytes → α → Prop}
    (hempty : ∀ value, ¬language [] value)
    (hnext : ∀ tag, (next tag).Accepts fun bytes value => language (tag :: bytes) value) :
    (byte >>= next).Accepts language := by
  refine (accepts_byte.bind hnext).congr fun bytes value => ?_
  constructor
  · rintro ⟨tag, _, back, rfl, rfl, hback⟩
    exact hback
  · intro hbytes
    cases bytes with
    | nil => exact absurd hbytes (hempty value)
    | cons tag back => exact ⟨tag, [tag], back, rfl, rfl, hbytes⟩

/-- Taking a 16-bit word accepts its two bytes. -/
theorem accepts_word16 : word16.Accepts fun bytes value => bytes = Bytes.ofWord16 value := by
  intro cursor value after
  obtain ⟨offset, rest⟩ := cursor
  obtain ⟨offset', rest'⟩ := after
  constructor
  · intro h
    unfold word16 at h
    split at h
    · rename_i high low rest'' hrest
      obtain ⟨rfl, rfl, rfl⟩ := by simpa using h
      refine ⟨_, rfl, ?_, ?_⟩
      · rw [Bytes.ofWord16_word16]
        exact hrest
      · rfl
    · simp at h
  · rintro ⟨_, rfl, hrest, hoffset⟩
    obtain rfl : rest = Bytes.ofWord16 value ++ rest' := hrest
    obtain rfl : offset' = offset + 2 := hoffset
    simp only [word16, Bytes.ofWord16, List.cons_append, List.nil_append,
      Bytes.word16_ofWord16]

/-- Passing over words accepts the bytes of any words of that number. -/
theorem accepts_pass_words (count : Nat) : (pass (2 * count)).Accepts fun bytes _ =>
    ∃ words : List UInt16, words.length = count ∧ bytes = words.flatMap Bytes.ofWord16 :=
  (accepts_pass _).congr fun _ _ => Bytes.length_eq_two_mul_iff

/-- Passing over one word accepts the two bytes of any word. -/
theorem accepts_pass_word :
    (pass 2).Accepts fun bytes _ => ∃ word : UInt16, bytes = Bytes.ofWord16 word := by
  refine (accepts_pass_words 1).congr fun bytes _ => ?_
  simp only [List.length_eq_one_iff]
  constructor
  · rintro ⟨_, ⟨word, rfl⟩, rfl⟩
    exact ⟨word, by simp⟩
  · rintro ⟨word, rfl⟩
    exact ⟨[word], ⟨word, rfl⟩, by simp⟩

/-- Taking a 32-bit word accepts its four bytes. -/
theorem accepts_word32 : word32.Accepts fun bytes value => bytes = Bytes.ofWord32 value := by
  intro cursor value after
  obtain ⟨offset, rest⟩ := cursor
  obtain ⟨offset', rest'⟩ := after
  constructor
  · intro h
    unfold word32 at h
    split at h
    · rename_i a b c d rest'' hrest
      obtain ⟨rfl, rfl, rfl⟩ := by simpa using h
      refine ⟨_, rfl, ?_, ?_⟩
      · rw [Bytes.ofWord32_word32]
        exact hrest
      · rfl
    · simp at h
  · rintro ⟨_, rfl, hrest, hoffset⟩
    obtain rfl : rest = Bytes.ofWord32 value ++ rest' := hrest
    obtain rfl : offset' = offset + 4 := hoffset
    simp only [word32, Bytes.ofWord32, List.cons_append, List.nil_append,
      Bytes.word32_ofWord32]

/-- A step that is run on a value, item after item, accepts the items one after the other
when the step accepts one item and puts it to the value. -/
theorem Accepts.thread {step : α → Reader α} {good : ι → Prop} {encode : ι → Bytes}
    {extend : α → ι → α}
    (hstep : ∀ value, (step value).Accepts fun bytes result =>
      ∃ item, good item ∧ bytes = encode item ∧ result = extend value item)
    (count : Nat) (value : α) :
    (Reader.thread step count value).Accepts fun bytes result =>
      ∃ items : List ι, items.length = count ∧ (∀ item ∈ items, good item) ∧
        bytes = items.flatMap encode ∧ result = items.foldl extend value := by
  induction count generalizing value with
  | zero =>
    refine (accepts_pure value).congr fun bytes result => ?_
    simp only [List.length_eq_zero_iff]
    constructor
    · rintro ⟨rfl, rfl⟩
      exact ⟨[], rfl, by simp, rfl, rfl⟩
    · rintro ⟨_, rfl, -, rfl, rfl⟩
      exact ⟨rfl, rfl⟩
  | succ count ih =>
    refine ((hstep value).bind ih).congr fun bytes result => ?_
    constructor
    · rintro ⟨_, _, _, rfl, ⟨item, hitem, rfl, rfl⟩, items, rfl, hitems, rfl, rfl⟩
      refine ⟨item :: items, rfl, ?_, rfl, rfl⟩
      exact List.forall_mem_cons.mpr ⟨hitem, hitems⟩
    · rintro ⟨items, hlength, hitems, rfl, rfl⟩
      cases items with
      | nil => simp at hlength
      | cons item items =>
        obtain ⟨hitem, hrest⟩ := List.forall_mem_cons.mp hitems
        exact ⟨_, _, _, rfl, ⟨item, hitem, rfl, rfl⟩, items, by simpa using hlength,
          hrest, rfl, rfl⟩

/-- A word that counts items and the items after it are accepted as a list short enough for
its count to fit the word. -/
theorem Accepts.counted {step : α → Reader α} {good : ι → Prop} {encode : ι → Bytes}
    {extend : α → ι → α}
    (hstep : ∀ value, (step value).Accepts fun bytes result =>
      ∃ item, good item ∧ bytes = encode item ∧ result = extend value item) (value : α) :
    (word16 >>= fun count => Reader.thread step count.toNat value).Accepts
      fun bytes result => ∃ items : List ι, items.length < 65536 ∧ (∀ item ∈ items, good item) ∧
        bytes = Bytes.ofWord16 (.ofNat items.length) ++ items.flatMap encode ∧
        result = items.foldl extend value := by
  refine (accepts_word16.bind fun count => Accepts.thread hstep count.toNat value).congr
    fun bytes result => ?_
  constructor
  · rintro ⟨count, _, _, rfl, rfl, items, hlength, hitems, rfl, rfl⟩
    have hcount := count.toNat_lt
    refine ⟨items, by omega, hitems, ?_, rfl⟩
    rw [hlength, UInt16.ofNat_toNat]
  · rintro ⟨items, hlength, hitems, rfl, rfl⟩
    exact ⟨_, _, _, rfl, rfl, items, (UInt16.toNat_ofNat_of_lt' hlength).symm, hitems, rfl, rfl⟩

/-- Running a step on a value some times, and then more times on what that gives, is running it
as often as both together. -/
theorem thread_add (step : α → Reader α) (first more : Nat) (value : α) :
    Reader.thread step (first + more) value =
      Reader.thread step first value >>= Reader.thread step more := by
  induction first generalizing value with
  | zero =>
    rw [Nat.zero_add]
    rfl
  | succ first ih =>
    rw [Nat.add_right_comm, Reader.thread, Reader.thread, bind_assoc]
    exact bind_congr fun middle => ih middle

/-- Repeating a step is threading no value through it. -/
theorem times_eq_thread (count : Nat) (step : Reader Unit) :
    times count step = Reader.thread (fun _ => step) count () := by
  induction count with
  | zero => rfl
  | succ count ih => rw [times, Reader.thread, ih]

/-- A step that gives nothing leaves the value that is threaded through it as it is. -/
theorem Accepts.unthreaded {step : Reader Unit} {good : ι → Prop} {encode : ι → Bytes}
    (hstep : step.Accepts fun bytes _ => ∃ item, good item ∧ bytes = encode item) (value : Unit) :
    step.Accepts fun bytes result => ∃ item, good item ∧ bytes = encode item ∧
      result = (fun value _ => value) value item :=
  hstep.congr fun _ _ => by simp

/-- A step that is repeated as often as a word says accepts counted items. -/
theorem Accepts.countedTimes {step : Reader Unit} {good : ι → Prop} {encode : ι → Bytes}
    (hstep : step.Accepts fun bytes _ => ∃ item, good item ∧ bytes = encode item) :
    (word16 >>= fun count => times count.toNat step).Accepts fun bytes _ =>
      ∃ items : List ι, items.length < 65536 ∧ (∀ item ∈ items, good item) ∧
        bytes = Bytes.ofWord16 (.ofNat items.length) ++ items.flatMap encode := by
  simp only [times_eq_thread]
  exact (Accepts.counted hstep.unthreaded ()).congr fun _ _ => by simp

/-- What follows a split sees the bytes that were split off as a cursor of their own. The
reader of a body and what comes after it accept the body followed by the rest. -/
theorem Accepts.body {next : Cursor → Reader β} (language : Bytes → Bytes → β → Prop)
    (count : Nat) (hnext : ∀ body, (next body).Accepts (language body.rest)) :
    (Reader.body count >>= next).Accepts fun bytes result =>
      ∃ content rest, bytes = content ++ rest ∧ content.length = count ∧
        language content rest result := by
  intro cursor result after
  let after_taking (content : Bytes) : Reader β := next ⟨cursor.offset, content⟩
  have hsplit : (Reader.body count >>= next) cursor = (take count >>= after_taking) cursor := by
    simp only [Bind.bind, StateT.bind, Reader.body, Except.bind]
    cases take count cursor <;> rfl
  rw [hsplit, (accepts_take count).bind (fun content => hnext ⟨cursor.offset, content⟩) ..]
  simp only [and_assoc]
  constructor
  · rintro ⟨bytes, ⟨_, content, rest, hbytes, rfl, hlength, hrest⟩, hcursor⟩
    exact ⟨bytes, ⟨_, rest, hbytes, hlength, hrest⟩, hcursor⟩
  · rintro ⟨bytes, ⟨content, rest, hbytes, hlength, hrest⟩, hcursor⟩
    exact ⟨bytes, ⟨content, content, rest, hbytes, rfl, hlength, hrest⟩, hcursor⟩

end JarCensus.ClassFile.Reader
