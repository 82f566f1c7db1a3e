import JarCensus.ClassFile.Checked.Summary
import JarCensus.Proofs.ClassFile.Bounds
import JarCensus.Proofs.ClassFile.Prefix

/-!
# Checked steps that follow readers

A window stands for the cursor over what is left of it. A checked step follows a reader when,
from windows that are nested in the bytes, it does what the reader does from the cursor: it
gives the same value or has the same fault, no operation of it is a breach, and what it
records is sound and shows the fault. Steps that are put together follow the readers that are
put together in the same way, so this is shown once for each kind of step.
-/

namespace JarCensus.ClassFile

/-- Whether windows, from the innermost to that of the file, are nested in the bytes. -/
structure Nested (bytes : Bytes) (live : List Window) : Prop where
  /-- Every window is one on the bytes. Its position is not behind its end, and its end is not
  behind the last byte. -/
  bounded : ∀ window ∈ live, window.data = bytes ∧ window.position ≤ window.stop ∧
    window.stop ≤ bytes.length
  /-- A window lies before the position of every window around it. -/
  apart : live.Pairwise fun inner outer => inner.stop ≤ outer.position
  /-- The outermost window ends with the bytes. -/
  outermost : ∃ file, live.getLast? = some file ∧ file.stop = bytes.length

namespace Nested

variable {bytes : Bytes} {window : Window} {around : List Window}

/-- The window of a file is nested in its bytes. -/
theorem whole (bytes : Bytes) : Nested bytes [Window.whole bytes] where
  bounded := by simp [Window.whole]
  apart := List.pairwise_singleton _ _
  outermost := ⟨Window.whole bytes, rfl, rfl⟩

/-- The innermost window may move as far as to its end. -/
theorem moved (h : Nested bytes (window :: around)) {position : Nat}
    (hposition : position ≤ window.stop) :
    Nested bytes ({ window with position } :: around) where
  bounded := by
    obtain ⟨⟨hdata, -, hstop⟩, haround⟩ := List.forall_mem_cons.mp h.bounded
    exact List.forall_mem_cons.mpr ⟨⟨hdata, hposition, hstop⟩, haround⟩
  apart := List.pairwise_cons.mpr (List.pairwise_cons.mp h.apart)
  outermost := by
    obtain ⟨file, hlast, hstop⟩ := h.outermost
    cases around with
    | nil =>
      obtain rfl : window = file := by simpa using hlast
      exact ⟨_, rfl, hstop⟩
    | cons outer around => exact ⟨file, by simpa using hlast, hstop⟩

/-- A window may be opened on bytes that the innermost one has passed. -/
theorem opened (h : Nested bytes (window :: around)) {start stop : Nat} (hstart : start ≤ stop)
    (hstop : stop ≤ window.position) :
    Nested bytes (⟨window.data, start, stop⟩ :: window :: around) where
  bounded := by
    obtain ⟨hdata, hposition, hend⟩ := h.bounded window List.mem_cons_self
    refine List.forall_mem_cons.mpr ⟨⟨hdata, hstart, ?_⟩, h.bounded⟩
    exact Nat.le_trans hstop (Nat.le_trans hposition hend)
  apart := by
    obtain ⟨haround, -⟩ := List.pairwise_cons.mp h.apart
    obtain ⟨-, hposition, -⟩ := h.bounded window List.mem_cons_self
    refine List.pairwise_cons.mpr ⟨?_, h.apart⟩
    refine List.forall_mem_cons.mpr ⟨hstop, fun outer houter => ?_⟩
    have hbefore := haround outer houter
    exact Nat.le_trans hstop (Nat.le_trans hposition hbefore)
  outermost := by
    obtain ⟨file, hlast, hend⟩ := h.outermost
    exact ⟨file, by simpa using hlast, hend⟩

end Nested

/-- Whether what is recorded stays in its bounds. -/
def Event.Sound (bytes : Bytes) : Event → Prop
  | .windows live => Nested bytes live
  | .value depth => depth ≤ deepestLevel + 1
  | .narrowed number => number < 65536

/-- Whether a record shows where a fault was found: bytes are missing at the position of a window,
a table is shorter than a window, and the number of a slot or a depth was recorded. -/
def Fault.ShownIn (record : List Event) : Fault → Prop
  | .truncated offset _ =>
    ∃ window around, .windows (window :: around) ∈ record ∧ window.position = offset
  | .shortTable declared _ =>
    ∃ window around, .windows (window :: around) ∈ record ∧
      window.stop - window.position = declared
  | .unknownConstant slot _ => .narrowed slot ∈ record
  | .wrongSlot slot .twoSlots => .narrowed slot ∈ record
  | .tooDeep limit => .value (limit + 1) ∈ record
  | _ => True

/-- The cursor over what is left of a window. -/
def Window.cursor (window : Window) : Cursor :=
  ⟨window.position, (window.data.take window.stop).drop window.position⟩

/-- Where a checked run may stand in bytes that a machine can address. -/
structure Kept (bytes : Bytes) (around : List Window) (window : Window) (record : List Event) :
    Prop where
  /-- The length of the bytes is a machine number. -/
  addressable : bytes.length < Bytes.end64
  /-- All that is recorded is sound. -/
  sound : ∀ event ∈ record, event.Sound bytes
  /-- The windows that are open are recorded. -/
  shown : .windows (window :: around) ∈ record

namespace Kept

variable {bytes : Bytes} {around : List Window} {window : Window} {record : List Event}

/-- Where a run may stand, the windows are nested. -/
theorem nested (h : Kept bytes around window record) : Nested bytes (window :: around) :=
  h.sound _ h.shown

/-- What is left of the window reaches from its position to its end. -/
theorem length_rest (h : Kept bytes around window record) :
    window.cursor.rest.length = window.stop - window.position := by
  obtain ⟨hdata, -, hstop⟩ := h.nested.bounded window List.mem_cons_self
  rw [Window.cursor, List.length_drop, List.length_take, hdata, Nat.min_eq_left hstop]

/-- A sound event may be recorded. -/
theorem recorded (h : Kept bytes around window record) {event : Event}
    (hevent : event.Sound bytes) : Kept bytes around window (event :: record) where
  addressable := h.addressable
  sound := List.forall_mem_cons.mpr ⟨hevent, h.sound⟩
  shown := List.mem_cons_of_mem event h.shown

/-- The run may go on with other windows once these are recorded. -/
theorem changed (h : Kept bytes around window record) {around' : List Window} {window' : Window}
    (hnested : Nested bytes (window' :: around')) :
    Kept bytes around' window' (.windows (window' :: around') :: record) where
  addressable := h.addressable
  sound := List.forall_mem_cons.mpr ⟨hnested, h.sound⟩
  shown := List.mem_cons_self

end Kept

/-- Whether a checked run ends as a reader does: at the cursor over what is left of the window,
or with the same fault, which the record shows. The record has only grown. -/
inductive Agrees {α : Type} (bytes : Bytes) (around : List Window) (earlier : List Event) :
    Except Fault (α × Cursor) → Except Halt (α × Window) × List Event → Prop
  | ok {value : α} {window : Window} {record : List Event} :
      Kept bytes around window record → earlier <:+ record →
      Agrees bytes around earlier (.ok (value, window.cursor)) (.ok (value, window), record)
  | fault {fault : Fault} {record : List Event} :
      (∀ event ∈ record, event.Sound bytes) → earlier <:+ record → fault.Within 0 bytes.length →
      fault.ShownIn record →
      Agrees bytes around earlier (.error fault) (.error (.fault fault), record)

namespace Agrees

variable {α : Type} {bytes : Bytes} {around : List Window} {earlier record : List Event}
  {left : Except Fault (α × Cursor)} {right : Except Halt (α × Window) × List Event}

/-- What agrees after a longer record agrees after the shorter one that it extends. -/
theorem mono (h : Agrees bytes around record left right) (hgrown : earlier <:+ record) :
    Agrees bytes around earlier left right := by
  cases h with
  | ok hkept hmore => exact .ok hkept (hgrown.trans hmore)
  | fault hsound hmore hwithin hshown => exact .fault hsound (hgrown.trans hmore) hwithin hshown

/-- The values and the faults are the same. -/
theorem outcome_eq (h : Agrees bytes around earlier left right) :
    right.1.map (·.1) = (left.map (·.1)).mapError Halt.fault := by
  cases h <;> rfl

/-- No operation is a breach. -/
theorem defined (h : Agrees bytes around earlier left right) (breach : Breach) :
    right.1 ≠ .error (.breach breach) := by
  cases h <;> nofun

/-- All that is recorded is sound. -/
theorem sound (h : Agrees bytes around earlier left right) :
    ∀ event ∈ right.2, event.Sound bytes := by
  cases h with
  | ok hkept _ => exact hkept.sound
  | fault hsound _ _ _ => exact hsound

/-- The record is extended. -/
theorem grown (h : Agrees bytes around earlier left right) : earlier <:+ right.2 := by
  cases h with
  | ok _ hgrown => exact hgrown
  | fault _ hgrown _ _ => exact hgrown

/-- The windows that are open where a run ends are recorded. -/
theorem shown (h : Agrees bytes around earlier left right) {value : α} {window : Window}
    (hvalue : right.1 = .ok (value, window)) : .windows (window :: around) ∈ right.2 := by
  cases h with
  | ok hkept _ =>
    cases hvalue
    exact hkept.shown
  | fault _ _ _ _ => cases hvalue

/-- A fault names no place outside of the bytes. -/
theorem within (h : Agrees bytes around earlier left right) {fault : Fault}
    (hfault : left = .error fault) : fault.Within 0 bytes.length := by
  cases h with
  | ok _ _ => cases hfault
  | fault _ _ hwithin _ =>
    cases hfault
    exact hwithin

/-- A fault is shown in the record. -/
theorem shown_fault (h : Agrees bytes around earlier left right) {fault : Fault}
    (hfault : left = .error fault) : fault.ShownIn right.2 := by
  cases h with
  | ok _ _ => cases hfault
  | fault _ _ _ hshown =>
    cases hfault
    exact hshown

end Agrees

/-- Whether a checked step does what a reader does, wherever a run may stand in the bytes. -/
def Follows {α : Type} (bytes : Bytes) (step : Checked α) (reader : Reader α) : Prop :=
  ∀ around window record, Kept bytes around window record →
    Agrees bytes around record (reader window.cursor) (step around window record)

namespace Checked

variable {α β : Type} {bytes : Bytes}

/-! ## Sequences -/

section Sequences

variable {step : Checked α} {next : α → Checked β} {around : List Window}
  {window window' : Window} {record record' : List Event} {value : α}

/-- A sequence runs its first part and goes on from what that gives. -/
theorem bind_apply (step : Checked α) (next : α → Checked β) (around : List Window)
    (window : Window) (record : List Event) : (step >>= next) around window record =
      ExceptT.bindCont (fun moved => next moved.1 around moved.2) (step around window record).1
        (step around window record).2 := rfl

/-- A sequence goes on where its first part ends. -/
theorem bind_of_ok (hvalue : step around window record = (.ok (value, window'), record')) :
    (step >>= next) around window record = next value around window' record' := by
  rw [bind_apply, hvalue]
  rfl

/-- A sequence ends where its first part is halted. -/
theorem bind_of_error {halt : Halt}
    (hhalt : step around window record = (.error halt, record')) :
    (step >>= next) around window record = (.error halt, record') := by
  rw [bind_apply, hhalt]
  rfl

end Sequences

/-- A value that is given without a step follows the reader that gives it. -/
theorem follows_pure (value : α) : Follows bytes (pure value) (pure value) := by
  intro around window record hkept
  exact .ok hkept (List.suffix_refl record)

/-- A fault that needs nothing on record follows the reader that has it. -/
theorem follows_fail {fault : Fault} (hwithin : fault.Within 0 bytes.length)
    (hshown : ∀ record, fault.ShownIn record) :
    Follows bytes (fail fault : Checked α) (throw fault) := by
  intro around window record hkept
  exact .fault hkept.sound (List.suffix_refl record) hwithin (hshown record)

/-- A fault that is shown by what was recorded just before follows the reader that has it. -/
theorem follows_recordedFault {fault : Fault} {event : Event} (hevent : event.Sound bytes)
    (hwithin : fault.Within 0 bytes.length) (hshown : ∀ record, fault.ShownIn (event :: record)) :
    Follows bytes (record event >>= fun _ => fail fault : Checked α) (throw fault) := by
  intro around window earlier hkept
  exact .fault (hkept.recorded hevent).sound (List.suffix_cons event earlier) hwithin
    (hshown earlier)

/-- What comes after a look-up follows the reader that looks up the same when it does so for the
value that is found, and when the fault of the look-up needs nothing on record. -/
theorem follows_found {outcome : Except Fault α} {next : α → Checked β} {rest : α → Reader β}
    (hfault : ∀ fault, outcome = .error fault →
      fault.Within 0 bytes.length ∧ ∀ record, fault.ShownIn record)
    (hnext : ∀ value, outcome = .ok value → Follows bytes (next value) (rest value)) :
    Follows bytes (found outcome >>= next) (liftM outcome >>= rest) := by
  cases outcome with
  | ok value => exact hnext value rfl
  | error fault =>
    obtain ⟨hwithin, hshown⟩ := hfault fault rfl
    exact follows_fail hwithin hshown

end Checked

open Checked

namespace Follows

variable {α β : Type} {bytes : Bytes}

/-- Sequences follow each other when their parts do, the second one for every value that the
first one can give. -/
theorem bindGiven {step : Checked α} {next : α → Checked β} {reader : Reader α}
    {rest : α → Reader β} (hstep : Follows bytes step reader)
    (hnext : ∀ value cursor after, reader cursor = .ok (value, after) →
      Follows bytes (next value) (rest value)) :
    Follows bytes (step >>= next) (reader >>= rest) := by
  intro around window record hkept
  have hagrees := hstep around window record hkept
  generalize hleft : reader window.cursor = left at hagrees
  generalize hright : step around window record = right at hagrees
  cases hagrees with
  | ok hkept' hgrown =>
    rw [JarCensus.bind_of_ok hleft, Checked.bind_of_ok hright]
    exact (hnext _ _ _ hleft _ _ _ hkept').mono hgrown
  | fault hsound hgrown hwithin hshown =>
    rw [JarCensus.bind_of_error hleft, Checked.bind_of_error hright]
    exact .fault hsound hgrown hwithin hshown

/-- Sequences follow each other when their parts do. -/
theorem bind {step : Checked α} {next : α → Checked β} {reader : Reader α}
    {rest : α → Reader β} (hstep : Follows bytes step reader)
    (hnext : ∀ value, Follows bytes (next value) (rest value)) :
    Follows bytes (step >>= next) (reader >>= rest) :=
  hstep.bindGiven fun value _ _ _ => hnext value

/-- A sound event may be recorded before a step. -/
theorem recorded {step : Checked α} {reader : Reader α} {event : Event}
    (hstep : Follows bytes step reader) (hevent : event.Sound bytes) :
    Follows bytes (record event >>= fun _ => step) reader := by
  intro around window earlier hkept
  have hrecord : record event around window earlier = (.ok ((), window), event :: earlier) := rfl
  rw [Checked.bind_of_ok hrecord]
  exact (hstep _ _ _ (hkept.recorded hevent)).mono (List.suffix_cons event earlier)

/-- Steps follow readers under a condition when both cases of it do. -/
theorem guard {condition : Prop} [Decidable condition] {first second : Checked α}
    {reader other : Reader α} (hfirst : condition → Follows bytes first reader)
    (hsecond : ¬condition → Follows bytes second other) :
    Follows bytes (if condition then first else second) (if condition then reader else other) := by
  split
  · rename_i h
    exact hfirst h
  · rename_i h
    exact hsecond h

/-- Steps that are run on a value a number of times follow readers that are. -/
theorem thread {step : α → Checked α} {reader : α → Reader α}
    (hstep : ∀ value, Follows bytes (step value) (reader value)) (count : Nat) (value : α) :
    Follows bytes (Checked.thread step count value) (Reader.thread reader count value) := by
  induction count generalizing value with
  | zero => exact follows_pure value
  | succ count ih => exact (hstep value).bind ih

/-- Steps that are run a number of times follow readers that are. -/
theorem times {step : Checked Unit} {reader : Reader Unit} (hstep : Follows bytes step reader)
    (count : Nat) : Follows bytes (Checked.times count step) (Reader.times count reader) := by
  rw [Reader.times_eq_thread]
  exact thread (fun _ => hstep) count ()

end Follows

/-! ## Operations on machine numbers -/

namespace Checked

variable {bytes : Bytes}

/-- A difference of numbers in order is taken. -/
theorem difference_of_le {minuend subtrahend : Nat} (h : subtrahend ≤ minuend) :
    difference minuend subtrahend = pure (minuend - subtrahend) := if_pos h

/-- A run goes on with a number below the limit as it is. -/
theorem fit_bind {β : Type} {limit number : Nat} (h : number < limit)
    (next : { word : Nat // word = number } → Checked β) :
    fit limit number >>= next = next ⟨number, rfl⟩ := by
  rw [fit, if_pos h, pure_bind]

/-- A fault of a slot whose number fits 16 bits names the slot. -/
theorem follows_narrowedFault {α : Type} {slot : Nat} (hslot : slot < 65536)
    {fault : Nat → Fault} (hwithin : (fault slot).Within 0 bytes.length)
    (hshown : ∀ record, (fault slot).ShownIn (.narrowed slot :: record)) :
    Follows bytes (narrow slot >>= fun word => fail (fault word) : Checked α)
      (throw (fault slot)) := by
  have hnarrow : (narrow slot >>= fun word => fail (fault word) : Checked α) =
      record (.narrowed slot) >>= fun _ => fail (fault slot) := by
    rw [narrow, bind_assoc]
    simp only [pure_bind, Nat.mod_eq_of_lt hslot]
  rw [hnarrow]
  exact follows_recordedFault hslot hwithin hshown

/-! ## Taking bytes -/

section Taking

variable {around : List Window} {window : Window} {record : List Event} {count : Nat}

/-- Bytes that are there are taken. -/
theorem take_of_le (hkept : Kept bytes around window record)
    (hcount : count ≤ window.stop - window.position) :
    take count around window record = (.ok (window.cursor.rest.take count,
        { window with position := window.position + count }),
      .windows ({ window with position := window.position + count } :: around) :: record) := by
  obtain ⟨hdata, hposition, hstop⟩ := hkept.nested.bounded window List.mem_cons_self
  have hsize := hkept.addressable
  have hget : (get : Checked Window) around window record = (.ok (window, window), record) := rfl
  have htaken : (window.data.drop window.position).take
      (window.position + count - window.position) = window.cursor.rest.take count := by
    rw [Window.cursor, List.drop_take, List.take_take, Nat.add_sub_cancel_left,
      Nat.min_eq_left hcount]
  have hinside : window.position ≤ window.position + count ∧
      window.position + count ≤ window.data.length := by
    rw [hdata]
    omega
  rw [take, bind_of_ok hget, difference_of_le hposition, pure_bind, if_neg (by omega),
    fit_bind (by omega), stretch, if_pos hinside, pure_bind, htaken]
  rfl

/-- The bytes that are lacking are asked for at the position of the window. -/
theorem take_of_lt (hkept : Kept bytes around window record)
    (hcount : window.stop - window.position < count) :
    take count around window record = (.error (.fault (.truncated window.position
      (count - (window.stop - window.position)))), record) := by
  obtain ⟨-, hposition, -⟩ := hkept.nested.bounded window List.mem_cons_self
  have hget : (get : Checked Window) around window record = (.ok (window, window), record) := rfl
  rw [take, bind_of_ok hget, difference_of_le hposition, pure_bind, if_pos hcount,
    difference_of_le (Nat.le_of_lt hcount), pure_bind]
  rfl

/-- The cursor moves with the window. -/
theorem cursor_moved (window : Window) (count : Nat) :
    { window with position := window.position + count }.cursor =
      ⟨window.position + count, window.cursor.rest.drop count⟩ := by
  simp [Window.cursor, List.drop_drop]

end Taking

/-- A step that goes on from a number of bytes without moving the window follows a reader that
takes as many and asks for those that are lacking. -/
theorem follows_taken {α : Type} (count : Nat) (value : Bytes → α) {next : Bytes → Checked α}
    {reader : Reader α} (hnext : ∀ front, front.length = count → next front = pure (value front))
    (hfull : ∀ offset front tail, front.length = count →
      reader ⟨offset, front ++ tail⟩ = .ok (value front, ⟨offset + count, tail⟩))
    (hshort : ∀ offset short, short.length < count →
      reader ⟨offset, short⟩ = .error (.truncated offset (count - short.length))) :
    Follows bytes (take count >>= next) reader := by
  intro around window record hkept
  obtain ⟨-, hposition, hstop⟩ := hkept.nested.bounded window List.mem_cons_self
  have hlength := hkept.length_rest
  -- The window has too few bytes left, or a front of what is left is taken.
  rcases Nat.lt_or_ge (window.stop - window.position) count with hlacking | henough
  · rw [bind_of_error (take_of_lt hkept hlacking), ← hlength]
    have hfault := hshort window.position window.cursor.rest (by omega)
    rw [show window.cursor = ⟨window.position, window.cursor.rest⟩ from rfl, hfault]
    exact .fault hkept.sound (List.suffix_refl record) ⟨by omega, by omega, by omega⟩
      ⟨window, around, hkept.shown, rfl⟩
  · have hfront : (window.cursor.rest.take count).length = count :=
      List.length_take_of_le (by omega)
    have hvalue := hfull window.position _ (window.cursor.rest.drop count) hfront
    rw [List.take_append_drop] at hvalue
    rw [bind_of_ok (take_of_le hkept henough), hnext _ hfront,
      show window.cursor = ⟨window.position, window.cursor.rest⟩ from rfl, hvalue, ← cursor_moved]
    exact .ok (hkept.changed (hkept.nested.moved (by omega))) (List.suffix_cons _ record)

/-- Taking bytes follows the reader that takes them. -/
theorem follows_take (count : Nat) : Follows bytes (take count) (Reader.take count) := by
  rw [← bind_pure (take count)]
  exact follows_taken count id (fun _ _ => rfl)
    (fun offset front tail hfront => Reader.take_of_length_eq hfront offset tail)
    (fun offset _ hshort => Reader.take_of_length_lt hshort offset)

/-- Passing over bytes follows the reader that passes over them. -/
theorem follows_pass (count : Nat) : Follows bytes (pass count) (Reader.pass count) :=
  (follows_take count).bind fun _ => follows_pure ()

/-- Taking a byte follows the reader that takes it. -/
theorem follows_byte : Follows bytes byte Reader.byte := by
  refine follows_taken 1 (fun front => front.headD 0) (fun front hfront => ?_)
    (fun offset front tail hfront => ?_) fun offset short hshort => ?_
  · obtain ⟨first, rfl⟩ := List.length_eq_one_iff.mp hfront
    rfl
  · obtain ⟨first, rfl⟩ := List.length_eq_one_iff.mp hfront
    rfl
  · obtain rfl := List.length_eq_zero_iff.mp (Nat.lt_one_iff.mp hshort)
    rfl

/-- Taking a 16-bit word follows the reader that takes it. -/
theorem follows_word16 : Follows bytes word16 Reader.word16 := by
  refine follows_taken 2 (fun front => Bytes.word16 (front.getD 0 0) (front.getD 1 0))
    (fun front hfront => ?_) (fun offset front tail hfront => ?_) fun offset short hshort => ?_
  · obtain ⟨high, low, rfl⟩ := List.length_eq_two.mp hfront
    rfl
  · obtain ⟨high, low, rfl⟩ := List.length_eq_two.mp hfront
    rfl
  · match short, hshort with
    | [], _ => rfl
    | [_], _ => rfl

/-- Taking a 32-bit word follows the reader that takes it. -/
theorem follows_word32 : Follows bytes word32 Reader.word32 := by
  refine follows_taken 4 (fun front => Bytes.word32 (front.getD 0 0) (front.getD 1 0)
      (front.getD 2 0) (front.getD 3 0))
    (fun front hfront => ?_) (fun offset front tail hfront => ?_) fun offset short hshort => ?_
  · match front, hfront with
    | [_, _, _, _], _ => rfl
  · match front, hfront with
    | [_, _, _, _], _ => rfl
  · match short, hshort with
    | [], _ => rfl
    | [_], _ => rfl
    | [_, _], _ => rfl
    | [_, _, _], _ => rfl

/-- A step that is repeated as often as a word says follows the reader that is. -/
theorem follows_countedTimes {step : Checked Unit} {reader : Reader Unit}
    (hstep : Follows bytes step reader) :
    Follows bytes (word16 >>= fun count => times count.toNat step)
      (Reader.word16 >>= fun count => Reader.times count.toNat reader) :=
  follows_word16.bind fun count => hstep.times count.toNat

/-! ## Windows inside of windows -/

section Inside

variable {α : Type} {around : List Window} {window : Window} {record : List Event} {count : Nat}

/-- A window is opened on bytes that are there, inside of the window that has passed them. -/
theorem body_of_le (hkept : Kept bytes around window record)
    (hcount : count ≤ window.stop - window.position) :
    let inner : Window := ⟨window.data, window.position, window.position + count⟩
    let after : Window := { window with position := window.position + count }
    body count around window record = (.ok (inner, after),
      .windows (inner :: after :: around) :: .windows (after :: around) :: record) := by
  obtain ⟨hdata, hposition, hstop⟩ := hkept.nested.bounded window List.mem_cons_self
  have hsize := hkept.addressable
  intro inner after
  have hget : (get : Checked Window) around window record = (.ok (window, window), record) := rfl
  have hpass : pass count around window record =
      (.ok ((), after), .windows (after :: around) :: record) := by
    rw [pass, bind_of_ok (take_of_le hkept hcount)]
    rfl
  have hafter : (get : Checked Window) around after (.windows (after :: around) :: record) =
      (.ok (after, after), .windows (after :: around) :: record) := rfl
  rw [body, bind_of_ok hget, bind_of_ok hpass, bind_of_ok hafter, fit_bind (by omega)]
  rfl

/-- The cursor over a window on the next bytes has these bytes left. -/
theorem cursor_opened (window : Window) (hcount : count ≤ window.stop - window.position) :
    Window.cursor ⟨window.data, window.position, window.position + count⟩ =
      ⟨window.position, window.cursor.rest.take count⟩ := by
  simp only [Window.cursor, List.drop_take, List.take_take, Nat.add_sub_cancel_left,
    Nat.min_eq_left hcount]

/-- No window is opened on bytes that are lacking. -/
theorem body_of_lt (hkept : Kept bytes around window record)
    (hcount : window.stop - window.position < count) :
    body count around window record = (.error (.fault (.truncated window.position
      (count - (window.stop - window.position)))), record) := by
  have hget : (get : Checked Window) around window record = (.ok (window, window), record) := rfl
  rw [body, bind_of_ok hget, pass, bind_of_error (bind_of_error (take_of_lt hkept hcount))]

/-- What comes after a window is opened on the next bytes follows what comes after these bytes
are split off, when it does so from every window that is opened inside of the current one. -/
theorem follows_body {next : Window → Checked α} {rest : Cursor → Reader α} (count : Nat)
    (hnext : ∀ around window inner record, Kept bytes around window record →
      Kept bytes (window :: around) inner record →
      Agrees bytes around record (rest inner.cursor window.cursor)
        (next inner around window record)) :
    Follows bytes (body count >>= next) (Reader.body count >>= rest) := by
  intro around window record hkept
  obtain ⟨-, hposition, hstop⟩ := hkept.nested.bounded window List.mem_cons_self
  have hlength := hkept.length_rest
  rcases Nat.lt_or_ge (window.stop - window.position) count with hlacking | henough
  · have hfault : Reader.body count window.cursor =
        .error (.truncated window.position (count - (window.stop - window.position))) := by
      rw [← hlength] at hlacking ⊢
      rw [Reader.body, show window.cursor = ⟨window.position, window.cursor.rest⟩ from rfl,
        Reader.take_of_length_lt hlacking]
    rw [bind_of_error (body_of_lt hkept hlacking), JarCensus.bind_of_error hfault]
    exact .fault hkept.sound (List.suffix_refl record) ⟨by omega, by omega, by omega⟩
      ⟨window, around, hkept.shown, rfl⟩
  · have hsplit : Reader.body count window.cursor = .ok (Window.cursor ⟨window.data,
        window.position, window.position + count⟩, Window.cursor
          { window with position := window.position + count }) := by
      have hfront : (window.cursor.rest.take count).length = count :=
        List.length_take_of_le (by omega)
      have htake := Reader.take_of_length_eq hfront window.position (window.cursor.rest.drop count)
      rw [List.take_append_drop] at htake
      rw [cursor_opened window henough, cursor_moved, Reader.body,
        show window.cursor = ⟨window.position, window.cursor.rest⟩ from rfl, htake]
    -- The window moves first, and only then is another one opened on what it has passed.
    have hmoved := hkept.changed (hkept.nested.moved
      (show window.position + count ≤ window.stop by omega))
    have hopened := hmoved.changed (hmoved.nested.opened (Nat.le_add_right window.position count)
      (Nat.le_refl _))
    rw [bind_of_ok (body_of_le hkept henough), JarCensus.bind_of_ok hsplit]
    refine (hnext _ _ _ _ (hmoved.recorded (hopened.sound _ hopened.shown)) hopened).mono ?_
    exact (List.suffix_cons _ record).trans (List.suffix_cons _ _)

/-- A step in a window of its own ends where it would end, with the current window. -/
theorem inside_apply {inner : Window} {step : Checked α}
    {right : Except Halt (α × Window) × List Event}
    (hstep : step (window :: around) inner record = right) :
    inside inner step around window record =
      (right.1.map fun moved => (moved.1, window), right.2) := by
  have hinside : inside inner step around window record =
      ExceptT.bindCont (m := StateM (List Event)) (fun moved => pure (moved.1, window))
        (step (window :: around) inner record).1 (step (window :: around) inner record).2 := rfl
  rw [hinside, hstep]
  obtain ⟨outcome, record'⟩ := right
  cases outcome <;> rfl

/-- A step in a window of its own leaves the current window where it is. -/
theorem agrees_inside {inner : Window} {step : Checked α} {left : Except Fault (α × Cursor)}
    (hkept : Kept bytes around window record)
    (hstep : Agrees bytes (window :: around) record left (step (window :: around) inner record)) :
    Agrees bytes around record (left.map fun moved => (moved.1, window.cursor))
      (inside inner step around window record) := by
  generalize hright : step (window :: around) inner record = right at hstep
  rw [inside_apply hright]
  cases hstep with
  | ok hinner hgrown =>
    exact .ok ⟨hinner.addressable, hinner.sound, hgrown.subset hkept.shown⟩ hgrown
  | fault hsound hgrown hwithin hshown => exact .fault hsound hgrown hwithin hshown

end Inside

end Checked

end JarCensus.ClassFile
