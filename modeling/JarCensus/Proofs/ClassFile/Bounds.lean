import JarCensus.ClassFile.Annotations
import JarCensus.Proofs.ClassFile.Faults

/-!
# Readers stay within their bytes

A reader that succeeds has taken a front of what was left, and the offset has grown by the
length of that front. A reader that misses bytes names an offset from its start to the end
of what was left, and asks for a byte at least.
-/

namespace JarCensus.ClassFile

/-- Whether what a fault says of places is true of a stretch of bytes: bytes are missing from an
offset in it on, its end included, and a table is shorter than a body that fits into it. -/
def Fault.Within (start finish : Nat) : Fault → Prop
  | .truncated offset needed => start ≤ offset ∧ offset ≤ finish ∧ 1 ≤ needed
  | .shortTable declared actual => actual < declared ∧ declared ≤ finish - start
  | _ => True

/-- What lies in a stretch lies in every stretch around it. -/
theorem Fault.Within.mono {start start' finish finish' : Nat} {fault : Fault}
    (h : fault.Within start finish) (hstart : start' ≤ start) (hfinish : finish ≤ finish') :
    fault.Within start' finish' := by
  cases fault with
  | truncated offset needed =>
    obtain ⟨hlow, hhigh, hneeded⟩ := h
    exact ⟨by omega, by omega, hneeded⟩
  | shortTable declared actual =>
    obtain ⟨hshort, hfits⟩ := h
    exact ⟨hshort, by omega⟩
  | _ => trivial

namespace Reader

variable {α β : Type}

/-- That a reader stays within the bytes that are left. -/
structure Bounded (reader : Reader α) : Prop where
  /-- What a successful run takes is a front of what was left. -/
  moves : ∀ {cursor value after}, reader cursor = .ok (value, after) →
    ∃ front, cursor.rest = front ++ after.rest ∧ after.offset = cursor.offset + front.length
  /-- A fault names no place outside of what was left. -/
  faults : ∀ {cursor fault}, reader cursor = .error fault →
    fault.Within cursor.offset (cursor.offset + cursor.rest.length)

/-- A sequence of bounded parts is bounded. -/
theorem Bounded.bind {reader : Reader α} {next : α → Reader β} (hreader : Bounded reader)
    (hnext : ∀ value, Bounded (next value)) : Bounded (reader >>= next) where
  moves := by
    intro cursor result after hresult
    obtain ⟨value, middle, hvalue, hafter⟩ := bind_apply_eq_ok_iff.mp hresult
    obtain ⟨front, hrest, hoffset⟩ := hreader.moves hvalue
    obtain ⟨more, hleft, hend⟩ := (hnext value).moves hafter
    refine ⟨front ++ more, ?_, ?_⟩
    · rw [hrest, hleft, List.append_assoc]
    · rw [hend, hoffset, List.length_append, Nat.add_assoc]
  faults := by
    intro cursor fault hfault
    rcases bind_apply_eq_error_iff.mp hfault with hfirst | ⟨value, middle, hvalue, hsecond⟩
    · exact hreader.faults hfirst
    · obtain ⟨front, hrest, hoffset⟩ := hreader.moves hvalue
      have hlength := congrArg List.length hrest
      rw [List.length_append] at hlength
      exact ((hnext value).faults hsecond).mono (by omega) (by omega)

/-- A reader of a language is bounded when its faults are. -/
theorem Accepts.bounded {reader : Reader α} {language : Bytes → α → Prop}
    (haccepts : reader.Accepts language) (hfaults : ∀ offset rest fault,
      reader ⟨offset, rest⟩ = .error fault → fault.Within offset (offset + rest.length)) :
    Bounded reader where
  moves := by
    intro cursor value after hvalue
    obtain ⟨front, -, hmoved⟩ := (haccepts cursor value after).mp hvalue
    exact ⟨front, hmoved⟩
  faults := hfaults _ _ _

/-- What looks at no bytes is bounded when its fault names no place. -/
theorem bounded_lift {found : Except Fault α}
    (hfound : ∀ fault, found = .error fault → ∀ start finish, fault.Within start finish) :
    Bounded (liftM found : Reader α) := by
  refine (accepts_lift found).bounded fun offset rest fault hfault => ?_
  cases found with
  | error own =>
    have herror : (liftM (Except.error own : Except Fault α) : Reader α) ⟨offset, rest⟩ =
        .error own := rfl
    rw [herror] at hfault
    exact hfound fault (congrArg _ (Except.error.inj hfault)) _ _
  | ok value => cases hfault

/-- A value that is given without reading is bounded. -/
theorem bounded_pure (value : α) : Bounded (pure value : Reader α) := by
  have hgiven : Bounded (liftM (.ok value : Except Fault α) : Reader α) := by
    refine bounded_lift fun fault hfault => ?_
    cases hfault
  exact hgiven

/-- A fault that names no place is bounded. -/
theorem bounded_throw {fault : Fault} (hfault : ∀ start finish, fault.Within start finish) :
    Bounded (throw fault : Reader α) := by
  have hgiven : Bounded (liftM (.error fault : Except Fault α) : Reader α) := by
    refine bounded_lift fun found hfound => ?_
    obtain rfl := Except.error.inj hfound
    exact hfault
  exact hgiven

/-- Taking bytes is bounded. -/
theorem bounded_take (count : Nat) : Bounded (take count) := by
  refine (accepts_take count).bounded fun offset rest fault hfault => ?_
  unfold take at hfault
  dsimp only at hfault
  split at hfault
  · cases hfault
  · rename_i hlacking
    obtain rfl := Except.error.inj hfault
    exact ⟨by omega, by omega, by omega⟩

/-- Passing over bytes is bounded. -/
theorem bounded_pass (count : Nat) : Bounded (pass count) :=
  (bounded_take count).bind fun _ => bounded_pure ()

/-- Taking a byte is bounded. -/
theorem bounded_byte : Bounded byte := by
  refine accepts_byte.bounded fun offset rest fault hfault => ?_
  cases rest with
  | nil =>
    obtain rfl : fault = .truncated offset 1 := (Except.error.inj hfault).symm
    exact ⟨Nat.le_refl _, Nat.le_add_right _ _, by decide⟩
  | cons first rest => cases hfault

/-- Taking a 16-bit word is bounded. -/
theorem bounded_word16 : Bounded word16 := by
  refine accepts_word16.bounded fun offset rest fault hfault => ?_
  match rest, hfault with
  | [], hfault =>
    obtain rfl : fault = .truncated offset 2 := (Except.error.inj hfault).symm
    exact ⟨Nat.le_refl _, Nat.le_add_right _ _, by decide⟩
  | [_], hfault =>
    obtain rfl : fault = .truncated offset 1 := (Except.error.inj hfault).symm
    exact ⟨Nat.le_refl _, Nat.le_add_right _ _, by decide⟩

/-- A bounded step that is run on a value a number of times is bounded. -/
theorem Bounded.thread {step : α → Reader α} (hstep : ∀ value, Bounded (step value))
    (count : Nat) (value : α) : Bounded (Reader.thread step count value) := by
  induction count generalizing value with
  | zero => exact bounded_pure value
  | succ count ih => exact (hstep value).bind ih

/-- A bounded step that is repeated as often as a word says is bounded. -/
theorem Bounded.countedTimes {step : Reader Unit} (hstep : Bounded step) :
    Bounded (word16 >>= fun count => times count.toNat step) := by
  refine bounded_word16.bind fun count => ?_
  rw [times_eq_thread]
  exact Bounded.thread (fun _ => hstep) count.toNat ()

end Reader

open Reader

/-- A slot that holds no text is a fault without a place. -/
theorem ConstantPool.within_of_utf8 {pool : ConstantPool} {index : UInt16} {fault : Fault}
    (h : pool.utf8 index = .error fault) (start finish : Nat) : fault.Within start finish := by
  unfold utf8 at h
  split at h
  · cases h
  · obtain rfl := Except.error.inj h
    trivial

/-- Element values are passed over within their bytes. -/
theorem bounded_passValue (levels : Nat) : Bounded (passValue levels) := by
  induction levels with
  | zero => exact bounded_throw fun _ _ => trivial
  | succ levels ih =>
    rw [passValue]
    refine bounded_byte.bind fun tag => ?_
    cases ElementForm.ofTag? tag with
    | none => exact bounded_throw fun _ _ => trivial
    | some form =>
      cases form with
      | words count => exact bounded_pass (2 * count)
      | nested =>
        exact (bounded_pass 2).bind fun _ =>
          Bounded.countedTimes ((bounded_pass 2).bind fun _ => ih)
      | array => exact Bounded.countedTimes ih

/-- Annotations are read within their bytes. -/
theorem bounded_readAnnotated (pool : ConstantPool) (names : Array String) :
    Bounded (readAnnotated pool names) :=
  bounded_word16.bind fun _ => (bounded_lift fun _ => pool.within_of_utf8).bind fun _ =>
    (Bounded.countedTimes ((bounded_pass 2).bind fun _ => bounded_passValue _)).bind fun _ =>
      bounded_pure _

end JarCensus.ClassFile
