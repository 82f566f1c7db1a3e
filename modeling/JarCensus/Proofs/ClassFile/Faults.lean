import JarCensus.Proofs.ClassFile.Acceptance

/-!
# Byte strings that readers refuse

Next to the faults of bytes that end too early, readers find faults in bytes that are
there. Which fronts of the bytes have which fault of this kind follows for sequences and
repetitions from what their parts accept and refuse: the first part that finds a fault
decides, and every part before it is accepted.
-/

namespace JarCensus.ClassFile

/-- Whether a fault lies in bytes that are there. -/
def Fault.InBytes (fault : Fault) : Prop := ∀ offset needed, fault ≠ .truncated offset needed

namespace Reader

variable {α β ι : Type}

/-- A reader refuses a language of byte strings and faults when it finds a fault in bytes that
are there exactly where a byte string of the language stands in front, with the fault that
belongs to it. -/
def Refuses (reader : Reader α) (language : Bytes → Fault → Prop) : Prop :=
  ∀ cursor fault, fault.InBytes → (reader cursor = .error fault ↔
    ∃ front back, language front fault ∧ cursor.rest = front ++ back)

/-- Languages with the same members are refused by the same readers. -/
theorem Refuses.congr {reader : Reader α} {language language' : Bytes → Fault → Prop}
    (h : reader.Refuses language)
    (hsame : ∀ bytes fault, language bytes fault ↔ language' bytes fault) :
    reader.Refuses language' := by
  intro cursor fault hfault
  simp only [← hsame]
  exact h cursor fault hfault

/-- A sequence refuses what its first part refuses, and what its first part accepts followed by
what the second part refuses. -/
theorem Refuses.bind {reader : Reader α} {next : α → Reader β} {good : Bytes → α → Prop}
    {bad : Bytes → Fault → Prop} {worse : α → Bytes → Fault → Prop}
    (hreader : reader.Refuses bad) (haccepts : reader.Accepts good)
    (hnext : ∀ value, (next value).Refuses (worse value)) :
    (reader >>= next).Refuses fun bytes fault => bad bytes fault ∨
      ∃ value front more, bytes = front ++ more ∧ good front value ∧ worse value more fault := by
  intro cursor fault hfault
  rw [bind_apply_eq_error_iff, hreader cursor fault hfault]
  constructor
  · rintro (⟨front, back, hfront, hrest⟩ | ⟨value, middle, hvalue, hmiddle⟩)
    · exact ⟨front, back, .inl hfront, hrest⟩
    · obtain ⟨front, hfront, hrest, hoffset⟩ := (haccepts ..).mp hvalue
      obtain ⟨more, back, hmore, hleft⟩ := (hnext value middle fault hfault).mp hmiddle
      refine ⟨front ++ more, back, .inr ⟨value, front, more, rfl, hfront, hmore⟩, ?_⟩
      rw [hrest, hleft, List.append_assoc]
  · rintro ⟨_, back, hfront | ⟨value, front, more, rfl, hfront, hmore⟩, hrest⟩
    · exact .inl ⟨_, back, hfront, hrest⟩
    · let middle : Cursor := ⟨cursor.offset + front.length, more ++ back⟩
      refine .inr ⟨value, middle, ?_, ?_⟩
      · exact (haccepts ..).mpr ⟨front, hfront, by rw [hrest, List.append_assoc], rfl⟩
      · exact (hnext value middle fault hfault).mpr ⟨more, back, hmore, rfl⟩

/-- A reader whose faults are all about missing bytes refuses nothing. -/
theorem refuses_nothing {reader : Reader α}
    (h : ∀ cursor fault, reader cursor = .error fault → ¬fault.InBytes) :
    reader.Refuses fun _ _ => False := by
  intro cursor fault hfault
  constructor
  · intro hfound
    exact absurd hfault (h cursor fault hfound)
  · rintro ⟨_, _, hnone, _⟩
    exact hnone.elim

/-- A look-up in what was read before refuses its fault before any byte. -/
theorem refuses_lift (found : Except Fault α) : Refuses (liftM found : Reader α)
    fun bytes fault => bytes = [] ∧ found = .error fault := by
  intro cursor fault hfault
  cases found with
  | error own =>
    have herror : (liftM (Except.error own : Except Fault α) : Reader α) cursor = .error own := rfl
    rw [herror]
    constructor
    · intro hsame
      exact ⟨[], cursor.rest, ⟨rfl, by simpa using hsame⟩, rfl⟩
    · rintro ⟨_, _, ⟨-, hsame⟩, -⟩
      simpa using hsame
  | ok value =>
    have hok : (liftM (Except.ok value : Except Fault α) : Reader α) cursor =
        .ok (value, cursor) := rfl
    simp [hok]

/-- A value that is given without reading is refused nowhere. -/
theorem refuses_pure (value : α) : Refuses (pure value : Reader α) fun _ _ => False :=
  (refuses_lift (.ok value)).congr fun _ _ => by simp

/-- A fault is refused before any byte. -/
theorem refuses_throw (fault : Fault) : Refuses (throw fault : Reader α)
    fun bytes found => bytes = [] ∧ found = fault :=
  (refuses_lift (.error fault)).congr fun _ _ => by simp [eq_comm]

/-- Taking bytes only fails where they are missing. -/
theorem refuses_take (count : Nat) : (take count).Refuses fun _ _ => False := by
  refine refuses_nothing fun cursor fault hfault => ?_
  unfold take at hfault
  dsimp only at hfault
  split at hfault
  · cases hfault
  · exact fun h => h _ _ (Except.error.inj hfault).symm

/-- Passing over bytes only fails where they are missing. -/
theorem refuses_pass (count : Nat) : (pass count).Refuses fun _ _ => False :=
  ((refuses_take count).bind (accepts_take count) fun _ => refuses_pure ()).congr fun _ _ => by simp

/-- Taking a byte only fails where it is missing. -/
theorem refuses_byte : byte.Refuses fun _ _ => False := by
  refine refuses_nothing fun cursor fault hfault => ?_
  unfold byte at hfault
  split at hfault
  · cases hfault
  · exact fun h => h _ _ (Except.error.inj hfault).symm

/-- What begins with a byte that decides how to go on is refused when, for each byte, the rest of
it is. -/
theorem Refuses.tagged {next : UInt8 → Reader α} {language : Bytes → Fault → Prop}
    (hempty : ∀ fault, ¬language [] fault)
    (hnext : ∀ tag, (next tag).Refuses fun bytes fault => language (tag :: bytes) fault) :
    (byte >>= next).Refuses language := by
  refine (refuses_byte.bind accepts_byte hnext).congr fun bytes fault => ?_
  constructor
  · rintro (hnone | ⟨tag, _, more, rfl, rfl, hmore⟩)
    · exact hnone.elim
    · exact hmore
  · intro hbytes
    cases bytes with
    | nil => exact absurd hbytes (hempty fault)
    | cons tag more => exact .inr ⟨tag, [tag], more, rfl, rfl, hbytes⟩

/-- Taking a 16-bit word only fails where its bytes are missing. -/
theorem refuses_word16 : word16.Refuses fun _ _ => False := by
  refine refuses_nothing fun cursor fault hfault => ?_
  unfold word16 at hfault
  split at hfault
  · cases hfault
  · exact fun h => h _ _ (Except.error.inj hfault).symm

/-- A step that is run on a value, item after item, refuses items it accepts, fewer than it is
run for, followed by what the step refuses. -/
theorem Refuses.thread {step : α → Reader α} {good : ι → Prop} {encode : ι → Bytes}
    {extend : α → ι → α} {bad : Bytes → Fault → Prop}
    (haccepts : ∀ value, (step value).Accepts fun bytes result =>
      ∃ item, good item ∧ bytes = encode item ∧ result = extend value item)
    (hrefuses : ∀ value, (step value).Refuses bad) (count : Nat) (value : α) :
    (Reader.thread step count value).Refuses fun bytes fault =>
      ∃ (items : List ι) (more : Bytes), items.length < count ∧ (∀ item ∈ items, good item) ∧
        bytes = items.flatMap encode ++ more ∧ bad more fault := by
  induction count generalizing value with
  | zero => exact (refuses_pure value).congr fun _ _ => by simp
  | succ count ih =>
    refine ((hrefuses value).bind (haccepts value) ih).congr fun bytes fault => ?_
    constructor
    · rintro
        (hbad | ⟨_, _, _, rfl, ⟨item, hitem, rfl, rfl⟩, items, more, hcount, hitems, rfl, hbad⟩)
      · exact ⟨[], bytes, Nat.succ_pos count, by simp, rfl, hbad⟩
      · refine ⟨item :: items, more, Nat.succ_lt_succ hcount, ?_, by simp, hbad⟩
        exact List.forall_mem_cons.mpr ⟨hitem, hitems⟩
    · rintro ⟨items, more, hcount, hitems, rfl, hbad⟩
      cases items with
      | nil => exact .inl hbad
      | cons item items =>
        obtain ⟨hitem, hrest⟩ := List.forall_mem_cons.mp hitems
        refine .inr ⟨_, _, items.flatMap encode ++ more, by simp, ⟨item, hitem, rfl, rfl⟩, items,
          more, Nat.lt_of_succ_lt_succ hcount, hrest, rfl, hbad⟩

/-- A word that counts items and the items after it are refused at the first item that is. -/
theorem Refuses.counted {step : α → Reader α} {good : ι → Prop} {encode : ι → Bytes}
    {extend : α → ι → α} {bad : Bytes → Fault → Prop}
    (haccepts : ∀ value, (step value).Accepts fun bytes result =>
      ∃ item, good item ∧ bytes = encode item ∧ result = extend value item)
    (hrefuses : ∀ value, (step value).Refuses bad) (value : α) :
    (word16 >>= fun count => Reader.thread step count.toNat value).Refuses fun bytes fault =>
      ∃ (count : UInt16) (items : List ι) (more : Bytes), items.length < count.toNat ∧
        (∀ item ∈ items, good item) ∧
        bytes = Bytes.ofWord16 count ++ (items.flatMap encode ++ more) ∧ bad more fault := by
  refine (refuses_word16.bind accepts_word16 fun count =>
    Refuses.thread haccepts hrefuses count.toNat value).congr fun bytes fault => ?_
  constructor
  · rintro (hnone | ⟨count, _, _, rfl, rfl, items, more, hcount, hitems, rfl, hbad⟩)
    · exact hnone.elim
    · exact ⟨count, items, more, hcount, hitems, rfl, hbad⟩
  · rintro ⟨count, items, more, hcount, hitems, rfl, hbad⟩
    exact .inr ⟨count, _, _, rfl, rfl, items, more, hcount, hitems, rfl, hbad⟩

/-- A step that is repeated as often as a word says is refused at the first item that is. -/
theorem Refuses.countedTimes {step : Reader Unit} {good : ι → Prop} {encode : ι → Bytes}
    {bad : Bytes → Fault → Prop}
    (haccepts : step.Accepts fun bytes _ => ∃ item, good item ∧ bytes = encode item)
    (hrefuses : step.Refuses bad) :
    (word16 >>= fun count => times count.toNat step).Refuses fun bytes fault =>
      ∃ (count : UInt16) (items : List ι) (more : Bytes), items.length < count.toNat ∧
        (∀ item ∈ items, good item) ∧
        bytes = Bytes.ofWord16 count ++ (items.flatMap encode ++ more) ∧ bad more fault := by
  simp only [times_eq_thread]
  exact Refuses.counted haccepts.unthreaded (fun _ => hrefuses) ()

end Reader

end JarCensus.ClassFile
