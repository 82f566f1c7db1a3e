import JarCensus.Bytes
import JarCensus.Text.Quoted

/-!
# Hexadecimal text

A byte is two hexadecimal digits of either case. Reading looks at the bytes of the
text: their number has to be even, and the first byte that is no digit is reported
with its position.
-/

namespace JarCensus.Hex

/-- Why text is not hexadecimal. -/
inductive Fault where
  /-- The text has an odd number of bytes. -/
  | oddLength
  /-- The byte at a position is no digit. -/
  | notADigit (byte : UInt8) (position : Nat)
  deriving DecidableEq, Repr

/-- The message of a fault. A byte is shown as the character with its number. -/
def Fault.message : Fault → String
  | .oddLength => "Odd number of digits"
  | .notADigit byte position =>
    s!"Invalid character {Text.Quoted.char (Char.ofNat byte.toNat)} at position {position}"

/-- Whether a character is the digit of a value, in lower or upper case. -/
def IsDigitOf (value : Nat) (c : Char) : Prop :=
  value < 16 ∧ (c = Nat.digitChar value ∨ c = (Nat.digitChar value).toUpper)

/-- The value of a digit. -/
def digit? (byte : UInt8) : Option Nat :=
  if 0x30 ≤ byte && byte ≤ 0x39 then some (byte.toNat - 0x30)
  else if 0x61 ≤ byte && byte ≤ 0x66 then some (byte.toNat - 0x57)
  else if 0x41 ≤ byte && byte ≤ 0x46 then some (byte.toNat - 0x37)
  else none

/-- The bytes of the digit pairs that stand at and after a position. -/
def decodePairs (position : Nat) : Bytes → Except Fault Bytes
  | high :: low :: rest =>
    match digit? high, digit? low with
    | none, _ => .error (.notADigit high position)
    | some _, none => .error (.notADigit low (position + 1))
    | some h, some l => (UInt8.ofNat (16 * h + l) :: ·) <$> decodePairs (position + 2) rest
  | _ => .ok []

/-- The bytes that hexadecimal text spells. -/
def decode (text : Bytes) : Except Fault Bytes :=
  if text.length % 2 = 1 then .error .oddLength else decodePairs 0 text

/-- The lower-case digit of a value below sixteen. -/
def digit (value : Nat) : UInt8 :=
  UInt8.ofNat (if value < 10 then 0x30 + value else 0x57 + value)

/-- The lower-case hexadecimal text of bytes. -/
def encode (bytes : Bytes) : Bytes :=
  bytes.flatMap fun byte => [digit (byte.toNat / 16), digit (byte.toNat % 16)]

/-- Every value below sixteen has a digit. -/
theorem digit?_digit : ∀ value < 16, digit? (digit value) = some value := by
  decide

/-- The text of bytes has two digits for each of them. -/
theorem length_encode (bytes : Bytes) : (encode bytes).length = 2 * bytes.length := by
  induction bytes with
  | nil => rfl
  | cons byte rest ih =>
    simp only [encode, List.flatMap_cons, List.length_append, List.length_cons,
      List.length_nil] at ih ⊢
    omega

/-- The digit pairs of bytes spell them, wherever they stand. -/
theorem decodePairs_encode (position : Nat) (bytes : Bytes) :
    decodePairs position (encode bytes) = .ok bytes := by
  induction bytes generalizing position with
  | nil => rfl
  | cons byte rest ih =>
    have hbyte := byte.toNat_lt
    have hhigh := digit?_digit (byte.toNat / 16) (by omega)
    have hlow := digit?_digit (byte.toNat % 16) (by omega)
    have hvalue : UInt8.ofNat (16 * (byte.toNat / 16) + byte.toNat % 16) = byte := by
      apply UInt8.toNat_inj.mp
      rw [UInt8.toNat_ofNat']
      omega
    change decodePairs position (digit (byte.toNat / 16) :: digit (byte.toNat % 16) ::
      encode rest) = _
    simp only [decodePairs, hhigh, hlow, ih, hvalue]
    rfl

/-- The hexadecimal text of bytes spells them. -/
theorem decode_encode (bytes : Bytes) : decode (encode bytes) = .ok bytes := by
  have heven : ¬ (2 * bytes.length) % 2 = 1 := by omega
  rw [decode, length_encode, if_neg heven, decodePairs_encode]

end JarCensus.Hex
