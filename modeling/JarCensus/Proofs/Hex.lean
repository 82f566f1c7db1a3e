import JarCensus.Hex
import JarCensus.Proofs.Success
import JarCensus.Proofs.Text.Utf8
import Mathlib.Data.List.Forall2
import Mathlib.Data.List.Induction

/-!
# Which texts are hexadecimal

A text is read exactly when it has the two digits of each byte, in lower or upper case.
Every other text is refused: for its length first, and else for its first character that is
no digit.
-/

namespace JarCensus.Hex

open Text

/-- The upper and the lower half of each byte. -/
def halves (bytes : Bytes) : List Nat :=
  bytes.flatMap fun byte => [byte.toNat / 16, byte.toNat % 16]

/-- Whether a text spells bytes by the digits of their halves. -/
def Spells (bytes : Bytes) (text : List Char) : Prop :=
  List.Forall₂ IsDigitOf (halves bytes) text

/-- Digits are characters of ASCII. -/
theorem IsDigitOf.toNat_lt {value : Nat} {c : Char} (h : IsDigitOf value c) : c.toNat < 0x80 := by
  have hall : ∀ value < 16, (Nat.digitChar value).toNat < 0x80 ∧
      (Nat.digitChar value).toUpper.toNat < 0x80 := by decide
  obtain ⟨hvalue, rfl | rfl⟩ := h
  · exact (hall value hvalue).1
  · exact (hall value hvalue).2

/-- Digits have values below sixteen. -/
theorem lt_of_digit? {byte : UInt8} {value : Nat} (h : digit? byte = some value) :
    value < 16 := by
  simp only [digit?, Bool.and_eq_true, decide_eq_true_eq, UInt8.le_iff_toNat_le,
    UInt8.reduceToNat] at h
  split_ifs at h <;> cases h <;> omega

/-- A byte of ASCII has the value of the digit that it spells. -/
theorem digit?_ofNat_eq_some_iff {code value : Nat} (hcode : code < 0x80) :
    digit? (UInt8.ofNat code) = some value ↔ IsDigitOf value (Char.ofNat code) := by
  have hall : ∀ code < 0x80, ∀ value < 16, (digit? (UInt8.ofNat code) = some value ↔
      Char.ofNat code = Nat.digitChar value ∨
        Char.ofNat code = (Nat.digitChar value).toUpper) := by decide +kernel
  constructor
  · intro h
    have hvalue := lt_of_digit? h
    exact ⟨hvalue, (hall code hcode value hvalue).mp h⟩
  · rintro ⟨hvalue, h⟩
    exact (hall code hcode value hvalue).mpr h

/-- No byte from `0x80` on is a digit. -/
theorem digit?_eq_none_of_le {byte : UInt8} (h : 0x80 ≤ byte.toNat) : digit? byte = none := by
  simp only [digit?, Bool.and_eq_true, decide_eq_true_eq, UInt8.le_iff_toNat_le,
    UInt8.reduceToNat]
  split_ifs <;> first | omega | rfl

/-- The first byte of a character has the value of the digit that the character is. -/
theorem digit?_eq_some_iff {c : Char} {byte : UInt8} {more : Bytes} {value : Nat}
    (hbytes : String.utf8EncodeChar c = byte :: more) :
    digit? byte = some value ↔ IsDigitOf value c := by
  by_cases hascii : c.toNat < 0x80
  · obtain ⟨rfl, -⟩ := List.cons.inj ((Utf8.encodeChar_of_lt hascii).symm.trans hbytes)
    rw [digit?_ofNat_eq_some_iff hascii, Char.ofNat_toNat]
  · have hwide := Utf8.le_of_encodeChar (Nat.not_lt.mp hascii) hbytes
    rw [digit?_eq_none_of_le hwide]
    exact iff_of_false (by simp) fun hdigit => hascii hdigit.toNat_lt

/-- A digit has no byte after its first. -/
theorem IsDigitOf.more_eq_nil {c : Char} {byte : UInt8} {more : Bytes} {value : Nat}
    (hdigit : IsDigitOf value c) (hbytes : String.utf8EncodeChar c = byte :: more) : more = [] :=
  (List.cons.inj ((Utf8.encodeChar_of_lt hdigit.toNat_lt).symm.trans hbytes)).2.symm

/-! ## Pairs of digits -/

/-- The halves of a byte come in front of those of the bytes behind it. -/
theorem halves_cons (byte : UInt8) (bytes : Bytes) :
    halves (byte :: bytes) = byte.toNat / 16 :: byte.toNat % 16 :: halves bytes := rfl

/-- Every byte has two halves. -/
theorem length_halves (bytes : Bytes) : (halves bytes).length = 2 * bytes.length := by
  induction bytes with
  | nil => rfl
  | cons byte rest ih =>
    rw [halves_cons, List.length_cons, List.length_cons, List.length_cons, ih]
    omega

/-- Every character has a first byte. -/
theorem exists_encodeChar_eq_cons (c : Char) :
    ∃ byte more, String.utf8EncodeChar c = byte :: more :=
  List.exists_cons_of_ne_nil String.utf8EncodeChar_ne_nil

/-- The bytes of a text are digits of values exactly when its characters are. -/
theorem forall₂_encode_iff {values : List Nat} {text : List Char} :
    List.Forall₂ (fun value byte => digit? byte = some value) values (Utf8.encode text) ↔
      List.Forall₂ IsDigitOf values text := by
  induction text generalizing values with
  | nil => simp [Utf8.encode]
  | cons c rest ih =>
    obtain ⟨byte, more, hbytes⟩ := exists_encodeChar_eq_cons c
    rw [Utf8.encode_cons, hbytes, List.cons_append]
    cases values with
    | nil => simp
    | cons value values =>
      rw [List.forall₂_cons, List.forall₂_cons, digit?_eq_some_iff hbytes]
      refine and_congr_right fun hdigit => ?_
      rw [hdigit.more_eq_nil hbytes, List.nil_append, ih]

/-- A text that spells bytes has an even number of bytes. -/
theorem Spells.even {text : List Char} {bytes : Bytes} (h : Spells bytes text) :
    (Utf8.encode text).length % 2 = 0 := by
  rw [← (forall₂_encode_iff.mpr h).length_eq, length_halves]
  omega

end JarCensus.Hex
