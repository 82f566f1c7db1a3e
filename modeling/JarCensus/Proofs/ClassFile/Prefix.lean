import JarCensus.Proofs.ClassFile.Exactness

/-!
# How much of a class file is read

A run of a reader either asks for bytes that are not there, or a front of the bytes
settles it: whatever follows the front makes no difference, and every shorter piece of
the front is reported as cut short, with a request that stays within the front. The
readers are built from steps of this kind, and a body that was split off is read
without looking at what follows it.
-/

namespace JarCensus.ClassFile

namespace Reader

variable {α β : Type}

/-- That a front of what is left settles what a reader does from an offset on. -/
structure Settles (reader : Reader α) (offset : Nat) (front : Bytes)
    (verdict : Except Fault α) : Prop where
  /-- The verdict is the same whatever follows the front, and all of that is left. -/
  whole : ∀ tail, reader ⟨offset, front ++ tail⟩ =
    verdict.map fun value => (value, ⟨offset + front.length, tail⟩)
  /-- A shorter piece of the front is cut short, and no more is asked for than the front has. -/
  cut : ∀ kept < front.length, ∃ place needed,
    reader ⟨offset, front.take kept⟩ = .error (.truncated place needed) ∧
      place ≤ offset + kept ∧ 1 ≤ needed ∧ kept + needed ≤ front.length

/-- That every run of a reader either asks for bytes that are not there or is settled by a
front of what is left. -/
def Prompt (reader : Reader α) : Prop := ∀ cursor,
  (∃ place needed, reader cursor = .error (.truncated place needed)) ∨
    ∃ front back verdict, cursor.rest = front ++ back ∧
      Settles reader cursor.offset front verdict

section Sequences

variable {reader : Reader α} {next : α → Reader β} {cursor middle : Cursor} {value : α}

/-- A fault of the first part that is settled settles the sequence. -/
theorem Settles.bind_error {offset : Nat} {front : Bytes} {fault : Fault}
    (hfirst : Settles reader offset front (.error fault)) :
    Settles (reader >>= next) offset front (.error fault) where
  whole := fun tail => bind_of_error (hfirst.whole tail)
  cut := fun kept hkept => by
    obtain ⟨place, needed, hcut, hbounds⟩ := hfirst.cut kept hkept
    exact ⟨place, needed, bind_of_error hcut, hbounds⟩

/-- Two parts that are settled by fronts next to each other are settled by both together. -/
theorem Settles.bind {offset : Nat} {front more : Bytes} {verdict : Except Fault β}
    (hfirst : Settles reader offset front (.ok value))
    (hsecond : Settles (next value) (offset + front.length) more verdict) :
    Settles (reader >>= next) offset (front ++ more) verdict where
  whole := by
    intro tail
    rw [List.append_assoc, bind_of_ok (hfirst.whole (more ++ tail)), hsecond.whole,
      List.length_append, Nat.add_assoc]
  cut := by
    intro kept hkept
    rw [List.length_append] at hkept
    rw [List.take_append]
    -- The cut lies within the first part, or behind all of it.
    rcases Nat.lt_or_ge kept front.length with hinside | hbehind
    · obtain ⟨place, needed, hcut, hplace, hneeded, hfits⟩ := hfirst.cut kept hinside
      have hnone : more.take (kept - front.length) = [] := by
        rw [show kept - front.length = 0 by omega, List.take_zero]
      refine ⟨place, needed, ?_, hplace, hneeded, by rw [List.length_append]; omega⟩
      rw [hnone, List.append_nil, bind_of_error hcut]
    · obtain ⟨place, needed, hcut, hplace, hneeded, hfits⟩ :=
        hsecond.cut (kept - front.length) (by omega)
      refine ⟨place, needed, ?_, by omega, hneeded, by rw [List.length_append]; omega⟩
      rw [List.take_of_length_le hbehind, bind_of_ok (hfirst.whole _), hcut]

/-- A sequence of prompt parts is prompt. -/
theorem Prompt.bind (hreader : Prompt reader) (hnext : ∀ value, Prompt (next value)) :
    Prompt (reader >>= next) := by
  intro cursor
  rcases hreader cursor with ⟨place, needed, hcut⟩ | ⟨front, back, verdict, hrest, hfirst⟩
  · exact .inl ⟨place, needed, bind_of_error hcut⟩
  · cases verdict with
    | error fault => exact .inr ⟨front, back, .error fault, hrest, hfirst.bind_error⟩
    | ok value =>
      have hcursor : reader cursor = .ok (value, ⟨cursor.offset + front.length, back⟩) := by
        rw [show cursor = ⟨cursor.offset, front ++ back⟩ from hrest ▸ rfl]
        exact hfirst.whole back
      rcases hnext value ⟨cursor.offset + front.length, back⟩ with
        ⟨place, needed, hcut⟩ | ⟨more, left, verdict, hmore, hsecond⟩
      · exact .inl ⟨place, needed, by rw [bind_of_ok hcursor, hcut]⟩
      · refine .inr ⟨front ++ more, left, verdict, ?_, hfirst.bind hsecond⟩
        rw [hrest, show back = more ++ left from hmore, List.append_assoc]

/-- A successful run of a prompt reader is settled by what it took. -/
theorem Prompt.settles_of_ok {after : Cursor} (hreader : Prompt reader)
    (hvalue : reader cursor = .ok (value, after)) :
    ∃ front, cursor.rest = front ++ after.rest ∧
      Settles reader cursor.offset front (.ok value) := by
  rcases hreader cursor with ⟨place, needed, hcut⟩ | ⟨front, back, verdict, hrest, hsettles⟩
  · rw [hcut] at hvalue
    cases hvalue
  · have hwhole := hsettles.whole back
    rw [← hrest, hvalue] at hwhole
    cases verdict with
    | error fault => cases hwhole
    | ok other =>
      obtain ⟨rfl, rfl⟩ := Prod.mk.inj (Except.ok.inj hwhole)
      exact ⟨front, hrest, hsettles⟩

end Sequences

/-- What looks at no bytes is settled by none. -/
theorem prompt_lift (found : Except Fault α) : Prompt (liftM found : Reader α) := by
  intro cursor
  refine .inr ⟨[], cursor.rest, found, rfl, ?_, by simp⟩
  intro tail
  cases found <;> rfl

/-- A value that is given without reading is settled by no bytes. -/
theorem prompt_pure (value : α) : Prompt (pure value : Reader α) := prompt_lift (.ok value)

/-- A fault is settled by no bytes. -/
theorem prompt_throw (fault : Fault) : Prompt (throw fault : Reader α) := prompt_lift (.error fault)

/-- What takes a fixed number of bytes and asks for those that are lacking is settled by that
number of bytes. -/
theorem prompt_of_fixed {reader : Reader α} (count : Nat)
    (hfull : ∀ offset front, front.length = count → ∃ value, ∀ tail,
      reader ⟨offset, front ++ tail⟩ = .ok (value, ⟨offset + count, tail⟩))
    (hshort : ∀ offset short, short.length < count →
      reader ⟨offset, short⟩ = .error (.truncated offset (count - short.length))) :
    Prompt reader := by
  intro ⟨offset, rest⟩
  rcases Nat.lt_or_ge rest.length count with hlacking | henough
  · exact .inl ⟨offset, count - rest.length, hshort offset rest hlacking⟩
  · have hfront : (rest.take count).length = count := List.length_take_of_le henough
    obtain ⟨value, hvalue⟩ := hfull offset (rest.take count) hfront
    refine .inr ⟨rest.take count, rest.drop count, .ok value, by simp, ?_, ?_⟩
    · intro tail
      rw [hvalue, hfront]
      rfl
    · intro kept hkept
      rw [hfront] at hkept ⊢
      have hpiece : ((rest.take count).take kept).length = kept := by
        rw [List.length_take, hfront]
        omega
      refine ⟨offset, count - kept, ?_, Nat.le_add_right offset kept, by omega, by omega⟩
      rw [hshort offset _ (by omega), hpiece]

/-- Bytes that are there are taken. -/
theorem take_of_length_eq {count : Nat} {front : Bytes} (hfront : front.length = count)
    (offset : Nat) (tail : Bytes) :
    take count ⟨offset, front ++ tail⟩ = .ok (front, ⟨offset + count, tail⟩) :=
  (accepts_take count ⟨offset, front ++ tail⟩ front ⟨offset + count, tail⟩).mpr
    ⟨front, ⟨rfl, hfront⟩, rfl, by rw [hfront]⟩

/-- The bytes that are lacking are asked for at the place where they would start. -/
theorem take_of_length_lt {count : Nat} {short : Bytes} (hshort : short.length < count)
    (offset : Nat) :
    take count ⟨offset, short⟩ = .error (.truncated offset (count - short.length)) := by
  have hlacking : count - short.length ≠ 0 := by omega
  simp only [take, Bytes.missing_eq, if_neg hlacking]

/-- Taking bytes is prompt. -/
theorem prompt_take (count : Nat) : Prompt (take count) :=
  prompt_of_fixed count (fun offset front hfront => ⟨front, take_of_length_eq hfront offset⟩)
    fun offset _ hshort => take_of_length_lt hshort offset

/-- Passing over bytes is prompt. -/
theorem prompt_pass (count : Nat) : Prompt (pass count) :=
  (prompt_take count).bind fun _ => prompt_pure ()

/-- Splitting off a body is prompt: the whole body has to be there. -/
theorem prompt_body (count : Nat) : Prompt (body count) := by
  refine prompt_of_fixed count (fun offset front hfront => ⟨⟨offset, front⟩, fun tail => ?_⟩)
    fun offset short hshort => ?_
  · simp only [body, take_of_length_eq hfront]
  · simp only [body, take_of_length_lt hshort]

/-- Taking a byte is prompt. -/
theorem prompt_byte : Prompt byte := by
  refine prompt_of_fixed 1 (fun offset front hfront => ?_) fun offset short hshort => ?_
  · obtain ⟨first, rfl⟩ := List.length_eq_one_iff.mp hfront
    exact ⟨first, fun tail => rfl⟩
  · obtain rfl := List.length_eq_zero_iff.mp (Nat.lt_one_iff.mp hshort)
    rfl

/-- Taking a 16-bit word is prompt. -/
theorem prompt_word16 : Prompt word16 := by
  refine prompt_of_fixed 2 (fun offset front hfront => ?_) fun offset short hshort => ?_
  · obtain ⟨high, low, rfl⟩ := List.length_eq_two.mp hfront
    exact ⟨Bytes.word16 high low, fun tail => rfl⟩
  · match short, hshort with
    | [], _ => rfl
    | [_], _ => rfl

/-- Taking a 32-bit word is prompt. -/
theorem prompt_word32 : Prompt word32 := by
  refine prompt_of_fixed 4 (fun offset front hfront => ?_) fun offset short hshort => ?_
  · match front, hfront with
    | [a, b, c, d], _ => exact ⟨Bytes.word32 a b c d, fun tail => rfl⟩
  · match short, hshort with
    | [], _ => rfl
    | [_], _ => rfl
    | [_, _], _ => rfl
    | [_, _, _], _ => rfl

/-- A prompt step that is run on a value a number of times is prompt. -/
theorem Prompt.thread {step : α → Reader α} (hstep : ∀ value, Prompt (step value))
    (count : Nat) (value : α) : Prompt (Reader.thread step count value) := by
  induction count generalizing value with
  | zero => exact prompt_pure value
  | succ count ih => exact (hstep value).bind ih

/-- A prompt step that is repeated as often as a word says is prompt. -/
theorem Prompt.countedTimes {step : Reader Unit} (hstep : Prompt step) :
    Prompt (word16 >>= fun count => times count.toNat step) := by
  refine prompt_word16.bind fun count => ?_
  rw [times_eq_thread]
  exact Prompt.thread (fun _ => hstep) count.toNat ()

/-- A condition that is checked without reading keeps a reader prompt. -/
theorem Prompt.guard {condition : Prop} [Decidable condition] {first second : Reader α}
    (hfirst : Prompt first) (hsecond : Prompt second) :
    Prompt (if condition then first else second) := by
  split
  · exact hfirst
  · exact hsecond

end Reader

open Reader

/-- What follows the tag of a constant is read promptly. -/
theorem ConstantPool.prompt_readBody (kind : ConstantKind) : Prompt (readBody kind) := by
  unfold readBody
  split
  · exact prompt_word16.bind fun length => (prompt_take length.toNat).bind fun _ => prompt_pure _
  · exact prompt_word16.bind fun _ => prompt_pure _
  · exact (prompt_pass _).bind fun _ => prompt_pure _

/-- Slots are filled promptly. A constant that has no room, or whose tag is unknown, is refused
as soon as its tag has been read. -/
theorem ConstantPool.prompt_fill (room : Nat) (pool : ConstantPool) : Prompt (fill room pool) := by
  induction room using Nat.strongRecOn generalizing pool with
  | ind room ih =>
    cases room with
    | zero => exact prompt_pure pool
    | succ room =>
      rw [fill]
      refine prompt_byte.bind fun tag => ?_
      cases ConstantKind.ofTag? tag with
      | none => exact prompt_throw _
      | some kind =>
        refine Prompt.guard ?_ ((prompt_readBody kind).bind fun slot => ih room (by omega) _)
        cases room with
        | zero => exact prompt_throw _
        | succ room => exact (prompt_pass _).bind fun _ => ih room (by omega) _

/-- The header is read promptly. -/
theorem prompt_readHeader : Prompt readHeader := by
  refine prompt_word32.bind fun word => ?_
  refine Prompt.guard ((prompt_throw _).bind fun _ => ?_) ?_
  all_goals
    refine prompt_word16.bind fun minor => prompt_word16.bind fun major => ?_
    exact Prompt.guard (prompt_throw _) (prompt_pure ())

/-- Fields and methods are passed over promptly. -/
theorem prompt_passMembers : Prompt passMembers := by
  have hattribute : Prompt passAttribute :=
    (prompt_pass 2).bind fun _ => prompt_word32.bind fun length => prompt_pass length.toNat
  exact Prompt.countedTimes ((prompt_pass 6).bind fun _ => Prompt.countedTimes hattribute)

/-- What stands before the attributes of the class is read promptly. -/
theorem prompt_readHead : Prompt readHead := by
  have hpool : Prompt ConstantPool.read :=
    prompt_word16.bind fun count => ConstantPool.prompt_fill (count.toNat - 1) .opening
  have hreferences : Prompt readReferences :=
    (prompt_pass 2).bind fun _ => prompt_word16.bind fun _ => (prompt_pass 2).bind fun _ =>
      prompt_word16.bind fun interfaces => (prompt_pass (2 * interfaces.toNat)).bind fun _ =>
        prompt_pure _
  exact prompt_readHeader.bind fun _ => hpool.bind fun pool => hreferences.bind fun thisClass =>
    prompt_passMembers.bind fun _ => prompt_passMembers.bind fun _ =>
      (prompt_lift (pool.className thisClass)).bind fun _ => prompt_pure _

/-- An attribute of the class is read promptly. A table is only looked at once its whole body is
there, so a fault in it comes from the body alone. -/
theorem prompt_readAttribute (pool : ConstantPool) (names : Array String) :
    Prompt (readAttribute pool names) :=
  prompt_word16.bind fun nameIndex => prompt_word32.bind fun length =>
    (prompt_body length.toNat).bind fun body => (prompt_lift (pool.utf8 nameIndex)).bind fun _ =>
      Prompt.guard (prompt_lift (readTable pool body names)) (prompt_pure names)

/-- A class file is read promptly. -/
theorem prompt_read : Prompt read :=
  prompt_readHead.bind fun head =>
    (prompt_word16.bind fun count =>
      Prompt.thread (prompt_readAttribute head.1) count.toNat #[]).bind fun _ => prompt_pure _

/-- What a class file says, and every fault of it other than missing bytes, is decided by a
front of the bytes: what follows the front makes no difference, and every shorter piece is
reported as cut short, at an offset within the piece and with a request for bytes that the
front has. -/
theorem parse_settled_by_front {bytes : Bytes}
    (hcomplete : ∀ offset needed, parse bytes ≠ .error (.truncated offset needed)) :
    ∃ count ≤ bytes.length, (∀ tail, parse (bytes.take count ++ tail) = parse bytes) ∧
      ∀ kept < count, ∃ offset needed,
        parse (bytes.take kept) = .error (.truncated offset needed) ∧
          offset ≤ kept ∧ 1 ≤ needed ∧ kept + needed ≤ count := by
  rcases prompt_read (Cursor.start bytes) with
    ⟨place, needed, hcut⟩ | ⟨front, back, verdict, hbytes, hsettled⟩
  · refine absurd ?_ (hcomplete place needed)
    rw [parse, StateT.run, hcut]
    rfl
  · obtain rfl : bytes = front ++ back := hbytes
    have hverdict : ∀ tail, parse (front ++ tail) = verdict := by
      intro tail
      rw [parse, StateT.run, Cursor.start, show (0 : Nat) = (Cursor.start (front ++ back)).offset
        from rfl, hsettled.whole tail]
      cases verdict <;> rfl
    refine ⟨front.length, by simp, fun tail => ?_, fun kept hkept => ?_⟩
    · rw [List.take_left, hverdict, hverdict]
    · obtain ⟨place, needed, hcut, hplace, hneeded, hfits⟩ := hsettled.cut kept hkept
      refine ⟨place, needed, ?_, by simpa [Cursor.start] using hplace, hneeded, hfits⟩
      rw [List.take_append_of_le_length (Nat.le_of_lt hkept), parse, StateT.run, Cursor.start]
      exact congrArg (Except.map (·.1)) hcut

/-- A table that leaves a byte of its attribute over is a fault that is decided as soon as the
attribute is there, two bytes before the end of these bytes. -/
theorem parse_settled_by_front_overlong :
    let overlong : ClassAttribute := .plain ⟨6, encodeTable [⟨5, []⟩] ++ [0]⟩
    let bytes := { annotatedClass with attributes := [overlong] }.encode ++ [1, 2]
    parse bytes = .error (.shortTable 7 6) ∧
      (∀ offset needed, parse bytes ≠ .error (.truncated offset needed)) ∧
      ∃ count ≤ bytes.length, (∀ tail, parse (bytes.take count ++ tail) = parse bytes) ∧
        ∀ kept < count, ∃ offset needed,
          parse (bytes.take kept) = .error (.truncated offset needed) ∧
            offset ≤ kept ∧ 1 ≤ needed ∧ kept + needed ≤ count := by
  intro overlong bytes
  have hfault : parse bytes = .error (.shortTable 7 6) := by decide +kernel
  have hcomplete : ∀ offset needed, parse bytes ≠ .error (.truncated offset needed) := by
    simp [hfault]
  exact ⟨hfault, hcomplete, parse_settled_by_front hcomplete⟩

end JarCensus.ClassFile
