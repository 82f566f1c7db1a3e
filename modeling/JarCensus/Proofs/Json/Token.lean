import JarCensus.Json.Spelling
import JarCensus.Proofs.Success
import JarCensus.Proofs.Text.Utf16

/-!
# Reading the spellings of tokens

Blanks, texts and numbers are read off the front of what is left by their readers. A text
ends with its quote, and a number ends where no digit, point or exponent follows.
-/

namespace JarCensus.Json

variable {α β : Type} {read : Reader α} {next : α → Reader β} {text rest : List Char}
  {value : α} {fault : Fault}

/-! ## Steps in a row -/

/-- Whether a reader fails on a text. -/
def Fails (read : Reader α) (text : List Char) : Prop := ∃ fault, read text = .error fault

/-- No second step is taken after a fault. -/
theorem Fails.bind (h : Fails read text) : Fails (read >>= next) text := by
  obtain ⟨fault, h⟩ := h
  exact ⟨fault, bind_of_error h⟩

/-- Steps fail when the second one does on everything that the first one may leave. -/
theorem fails_bind (h : ∀ value rest, read text = .ok (value, rest) → Fails (next value) rest) :
    Fails (read >>= next) text := by
  cases hread : read text with
  | error fault => exact Fails.bind ⟨fault, hread⟩
  | ok found =>
    rw [Fails, bind_of_ok hread]
    exact h found.1 found.2 hread

/-- A changed result leaves what the result leaves. -/
theorem map_of_ok {change : α → β} (h : read text = .ok (value, rest)) :
    (change <$> read) text = .ok (change value, rest) := by
  simp [Functor.map, StateT.map, bind, Except.bind, pure, Except.pure, h]

/-- A changed result fails with the result. -/
theorem Fails.map {change : α → β} (h : Fails read text) : Fails (change <$> read) text := by
  obtain ⟨fault, h⟩ := h
  exact ⟨fault, by simp [Functor.map, StateT.map, Bind.bind, Except.bind, h]⟩

namespace Token

/-! ## Blanks -/

/-- Blanks in front do not count. -/
theorem dropSpace_append {blanks : List Char} (hblanks : Blank blanks) (rest : List Char) :
    dropSpace (blanks ++ rest) = dropSpace rest :=
  List.dropWhile_append_of_pos hblanks

/-- What starts with another character has no blanks in front. -/
theorem dropSpace_cons {c : Char} (hc : isSpace c = false) (rest : List Char) :
    dropSpace (c :: rest) = c :: rest :=
  List.dropWhile_cons_of_neg (by simp [hc])

/-- Passing over blanks leaves what follows them. -/
theorem space_of_append {blanks : List Char} {c : Char} (hblanks : Blank blanks)
    (hc : isSpace c = false) (rest : List Char) :
    space (blanks ++ c :: rest) = .ok ((), c :: rest) := by
  have hdrop : dropSpace (blanks ++ c :: rest) = c :: rest := by
    rw [dropSpace_append hblanks, dropSpace_cons hc]
  exact congrArg (fun left => Except.ok ((), left)) hdrop

/-! ## Texts -/

/-- A digit has its value. -/
theorem hexValue?_of_isDigitOf {value : Nat} {c : Char} (h : Hex.IsDigitOf value c) :
    hexValue? c = some value := by
  have hall : ∀ value < 16, hexValue? (Nat.digitChar value) = some value ∧
      hexValue? (Nat.digitChar value).toUpper = some value := by decide
  obtain ⟨hvalue, rfl | rfl⟩ := h
  · exact (hall value hvalue).1
  · exact (hall value hvalue).2

/-- What spells a code unit is a backslash, the letter of code units and four digits, which are
read as the unit. -/
theorem exists_codeUnit?_of_spellsUnit {unit : UInt16} {text : List Char}
    (h : SpellsUnit unit text) :
    ∃ a b c d, text = ['\\', 'u', a, b, c, d] ∧ codeUnit? a b c d = some unit := by
  obtain ⟨digits, hdigits, rfl⟩ := h
  rcases hdigits with _ | ⟨ha, _ | ⟨hb, _ | ⟨hc, _ | ⟨hd, _ | _⟩⟩⟩⟩
  refine ⟨_, _, _, _, rfl, ?_⟩
  have hunit := unit.toNat_lt
  have hvalue : 4096 * (unit.toNat / 4096) + 256 * (unit.toNat / 256 % 16) +
      16 * (unit.toNat / 16 % 16) + unit.toNat % 16 = unit.toNat := by omega
  simp only [codeUnit?, hexValue?_of_isDigitOf ha, hexValue?_of_isDigitOf hb,
    hexValue?_of_isDigitOf hc, hexValue?_of_isDigitOf hd, Option.bind_eq_bind, Option.bind_some,
    hvalue, UInt16.ofNat_toNat]
  rfl

/-- A code unit of a character is no lone surrogate. -/
theorem stringFrom_of_units {c : Char} {texts : List (List Char)}
    (h : List.Forall₂ SpellsUnit (Text.Utf16.encodeChar c) texts) (done rest : List Char) :
    stringFrom done (texts.flatten ++ rest) = stringFrom (c :: done) rest := by
  obtain ⟨unit, hunits, hhigh, hlow, hc⟩ | ⟨high, low, hunits, hhigh, hlow, hc⟩ :=
    Text.Utf16.encodeChar_cases c
  · rw [hunits] at h
    rcases h with _ | ⟨hunit, _ | _⟩
    obtain ⟨x, y, z, w, rfl, hdigits⟩ := exists_codeUnit?_of_spellsUnit hunit
    simp only [List.flatten_cons, List.flatten_nil, List.append_nil, List.cons_append,
      List.nil_append]
    rw [stringFrom.eq_def]
    simp only [hdigits, hhigh, hlow, hc]
    rfl
  · rw [hunits] at h
    rcases h with _ | ⟨hfirst, _ | ⟨hsecond, _ | _⟩⟩
    obtain ⟨x, y, z, w, rfl, hdigits⟩ := exists_codeUnit?_of_spellsUnit hfirst
    obtain ⟨x', y', z', w', rfl, hdigits'⟩ := exists_codeUnit?_of_spellsUnit hsecond
    simp only [List.flatten_cons, List.flatten_nil, List.append_nil, List.cons_append,
      List.nil_append]
    -- The reader looks for a low surrogate first, which a high one is not.
    have hnotLow : ¬Text.Utf16.isLowSurrogate high = true := by
      rw [Text.Utf16.isHighSurrogate_iff] at hhigh
      rw [Text.Utf16.isLowSurrogate_iff]
      omega
    rw [stringFrom.eq_def]
    simp only [hdigits, hdigits', hhigh, hlow, hnotLow, hc]
    rfl

/-- What spells a character is read as the character. -/
theorem stringFrom_of_spellsChar {c : Char} {own : List Char} (h : SpellsChar c own)
    (done rest : List Char) : stringFrom done (own ++ rest) = stringFrom (c :: done) rest := by
  cases h with
  | plain hquote hslash hcontrol =>
    rw [List.singleton_append, stringFrom.eq_def]
    simp only [hquote, hslash, Nat.not_lt.mpr hcontrol, if_false]
  | @short letter hescape =>
    simp only [shortEscapes, List.mem_cons, Prod.mk.injEq, List.not_mem_nil, or_false] at hescape
    rcases hescape with ⟨rfl, rfl⟩ | ⟨rfl, rfl⟩ | ⟨rfl, rfl⟩ | ⟨rfl, rfl⟩ | ⟨rfl, rfl⟩ |
      ⟨rfl, rfl⟩ | ⟨rfl, rfl⟩ | ⟨rfl, rfl⟩ <;>
    · simp only [List.cons_append, List.nil_append]
      rw [stringFrom.eq_def]
      rfl
  | units hunits => exact stringFrom_of_units hunits done rest

/-- What spells characters is read as the characters, up to the quote. -/
theorem stringFrom_of_spellsChars {chars inner : List Char} (h : SpellsChars chars inner)
    (done rest : List Char) :
    stringFrom done (inner ++ '"' :: rest) = .ok (done.reverse ++ chars, rest) := by
  induction h generalizing done with
  | nil =>
    rw [List.nil_append, List.append_nil, stringFrom.eq_def]
    rfl
  | @cons c chars own others hchar hchars ih =>
    rw [List.append_assoc, stringFrom_of_spellsChar hchar, ih, List.reverse_cons,
      List.append_assoc, List.singleton_append]

/-- What spells a text is a quote and what is read as the text. -/
theorem exists_string_of_spellsString {value : String} {text : List Char}
    (h : SpellsString value text) :
    ∃ body, text = '"' :: body ∧ ∀ rest, string (body ++ rest) = .ok (value.toList, rest) := by
  obtain ⟨inner, hinner, rfl⟩ := h
  refine ⟨inner ++ ['"'], rfl, fun rest => ?_⟩
  rw [string, List.append_assoc, List.singleton_append, stringFrom_of_spellsChars hinner]
  rfl

/-! ## Numbers -/

/-- Whether no digit comes first. -/
def NoDigit (rest : List Char) : Prop := ∀ c ∈ rest.head?, c.isDigit = false

/-- Whether no number goes on with a text. -/
def EndsNumber (rest : List Char) : Prop :=
  ∀ c ∈ rest.head?, c.isDigit = false ∧ c ≠ '.' ∧ c ∉ ['e', 'E']

/-- All digits in front are read. -/
theorem digits_of_append {own : List Char} (hne : own ≠ [])
    (hown : ∀ c ∈ own, c.isDigit = true) (hrest : NoDigit rest) :
    digits (own ++ rest) = .ok (own, rest) := by
  obtain ⟨c, own, rfl⟩ := List.exists_cons_of_ne_nil hne
  have htake : rest.takeWhile (·.isDigit) = [] := by
    cases rest with
    | nil => rfl
    | cons d rest => exact List.takeWhile_cons_of_neg (by simp [hrest d rfl])
  have hdrop : rest.dropWhile (·.isDigit) = rest := by
    cases rest with
    | nil => rfl
    | cons d rest => exact List.dropWhile_cons_of_neg (by simp [hrest d rfl])
  have hfirst : c.isDigit = true := hown c List.mem_cons_self
  have hothers : ∀ d ∈ own, d.isDigit = true := fun d hd => hown d (List.mem_cons_of_mem c hd)
  rw [digits, bind_of_ok (rfl : (get : Reader (List Char)) _ = .ok (_, _))]
  simp only [List.cons_append, hfirst, if_true]
  rw [List.takeWhile_append_of_pos hothers, List.dropWhile_append_of_pos hothers, htake, hdrop,
    List.append_nil]
  rfl

/-- Only zero starts with a zero. -/
theorem head?_toDigits_ne_zero {value : Nat} (h : 0 < value) :
    (Nat.toDigits 10 value).head? ≠ some '0' := by
  induction value using Nat.strongRecOn with
  | ind value ih =>
    by_cases hsmall : value < 10
    · have hall : ∀ value < 10, 0 < value → Nat.digitChar value ≠ '0' := by decide
      rw [Nat.toDigits_of_lt_base hsmall, List.head?_cons]
      exact fun hzero => hall value hsmall h (Option.some.inj hzero)
    · have hfront := ih (value / 10) (by omega) (by omega)
      rw [Nat.toDigits_of_base_le (by omega) (by omega)]
      rwa [List.head?_append_of_ne_nil _ Nat.toDigits_ne_nil]

/-- A text that does not start with a zero is read as digits. -/
theorem wholeDigits_of_ne_zero (h : text.head? ≠ some '0') : wholeDigits text = digits text := by
  rw [wholeDigits, bind_of_ok (rfl : (get : Reader (List Char)) text = .ok (text, text))]
  split
  · exact absurd rfl h
  · rfl

/-- The digits of a number are read up to what is no digit. -/
theorem wholeDigits_toDigits (value : Nat) (hrest : NoDigit rest) :
    wholeDigits (Nat.toDigits 10 value ++ rest) = .ok (Nat.toDigits 10 value, rest) := by
  rcases Nat.eq_zero_or_pos value with rfl | hpos
  · -- A zero stands alone, whether or not something follows it.
    cases rest with
    | nil => rfl
    | cons c rest =>
      have hc : c.isDigit = false := hrest c rfl
      rw [Nat.toDigits_zero, List.singleton_append, wholeDigits,
        bind_of_ok (rfl : (get : Reader (List Char)) _ = .ok (_, _))]
      simp only [hc, Bool.false_eq_true, if_false]
      rfl
  · have hhead : (Nat.toDigits 10 value ++ rest).head? ≠ some '0' := by
      rw [List.head?_append_of_ne_nil _ Nat.toDigits_ne_nil]
      exact head?_toDigits_ne_zero hpos
    rw [wholeDigits_of_ne_zero hhead]
    exact digits_of_append Nat.toDigits_ne_nil
      (fun c hc => Nat.isDigit_of_mem_toDigits (by omega) (by omega) hc) hrest

/-- More digits do not make a number smaller. -/
theorem le_ofDigitChars (value : Nat) (chars : List Char) :
    value ≤ Nat.ofDigitChars 10 chars value := by
  induction chars generalizing value with
  | nil => exact Nat.le_refl value
  | cons c chars ih =>
    rw [Nat.ofDigitChars_cons]
    have hrest := ih (10 * value + (c.toNat - '0'.toNat))
    omega

/-- A digit is taken when the number still fits with it. -/
theorem significand_cons (value : Nat) (c : Char) (chars : List Char) :
    significand value (c :: chars) =
      if 10 * value + (c.toNat - '0'.toNat) < Bytes.end64 then
        significand (10 * value + (c.toNat - '0'.toNat)) chars
      else (value, c :: chars) := by
  have hstep : decimal [c] + 10 * value = 10 * value + (c.toNat - '0'.toNat) := by
    rw [Nat.add_comm]
    exact congrArg (10 * value + ·) (Nat.zero_add _)
  rw [significand, hstep]

/-- Digits that fit are all taken. -/
theorem significand_of_lt {chars : List Char} {value : Nat}
    (h : Nat.ofDigitChars 10 chars value < Bytes.end64) :
    significand value chars = (Nat.ofDigitChars 10 chars value, []) := by
  induction chars generalizing value with
  | nil => rfl
  | cons c chars ih =>
    rw [Nat.ofDigitChars_cons] at h ⊢
    have hle := le_ofDigitChars (10 * value + (c.toNat - '0'.toNat)) chars
    rw [significand_cons, if_pos (by omega), ih h]

/-- When all digits are taken, they fit. -/
theorem ofDigitChars_of_significand {chars : List Char} {value result : Nat}
    (hvalue : value < Bytes.end64) (h : significand value chars = (result, [])) :
    Nat.ofDigitChars 10 chars value = result ∧ result < Bytes.end64 := by
  induction chars generalizing value with
  | nil =>
    cases h
    exact ⟨rfl, hvalue⟩
  | cons c chars ih =>
    rw [significand_cons] at h
    rw [Nat.ofDigitChars_cons]
    by_cases hlonger : 10 * value + (c.toNat - '0'.toNat) < Bytes.end64
    · rw [if_pos hlonger] at h
      exact ih hlonger h
    · rw [if_neg hlonger] at h
      cases h

/-- There is no fraction where no point comes first. -/
theorem fraction_of_ne_point (h : text.head? ≠ some '.') :
    fraction text = .ok (none, text) := by
  rw [fraction, bind_of_ok (rfl : (get : Reader (List Char)) text = .ok (text, text))]
  split
  · exact absurd rfl h
  · rfl

/-- There is a fraction after a point. -/
theorem point_ne_of_fraction {left : List Char} (h : fraction text = .ok (none, left)) :
    text.head? ≠ some '.' ∧ left = text := by
  by_cases hpoint : text.head? = some '.'
  · obtain ⟨rest, rfl⟩ := List.head?_eq_some_iff.mp hpoint
    rw [fraction, bind_of_ok (rfl : (get : Reader (List Char)) _ = .ok (_, _))] at h
    simp only [bind_apply_eq_ok_iff] at h
    obtain ⟨_, _, -, digits, _, -, hnone⟩ := h
    cases hnone
  · rw [fraction_of_ne_point hpoint] at h
    cases h
    exact ⟨hpoint, rfl⟩

/-- There is no exponent where no letter of exponents comes first. -/
theorem exponent_of_notMem (h : ∀ c ∈ text.head?, c ∉ ['e', 'E']) :
    exponent text = .ok (none, text) := by
  rw [exponent, bind_of_ok (rfl : (get : Reader (List Char)) text = .ok (text, text))]
  cases text with
  | nil => rfl
  | cons c rest =>
    have hc : ¬(c = 'e' ∨ c = 'E') := by simpa using h c rfl
    simp only [hc, if_false]
    rfl

/-- Where no exponent is found, no letter of exponents comes first. -/
theorem notMem_of_exponent {left : List Char} (h : exponent text = .ok (none, left)) :
    (∀ c ∈ text.head?, c ∉ ['e', 'E']) ∧ left = text := by
  by_cases hnone : ∀ c ∈ text.head?, c ∉ ['e', 'E']
  · rw [exponent_of_notMem hnone] at h
    cases h
    exact ⟨hnone, rfl⟩
  · obtain ⟨c, hc, hmark⟩ : ∃ c ∈ text.head?, c = 'e' ∨ c = 'E' := by
      simpa only [not_forall, not_not, exists_prop, List.mem_cons, List.not_mem_nil,
        or_false] using hnone
    obtain ⟨rest, rfl⟩ := List.head?_eq_some_iff.mp hc
    rw [exponent, bind_of_ok (rfl : (get : Reader (List Char)) _ = .ok (_, _))] at h
    dsimp only at h
    rw [if_pos hmark] at h
    split at h <;>
    · simp only [bind_apply_eq_ok_iff] at h
      obtain ⟨_, _, -, digits, _, -, hnone⟩ := h
      cases hnone

/-- A number has a value only when it has no minus, point or exponent and its digits fit. -/
theorem of_number_eq_some {isNegative : Bool} {value : Nat} {left : List Char}
    (h : number isNegative text = .ok (some value, left)) :
    ∃ whole, wholeDigits text = .ok (whole, left) ∧ fraction left = .ok (none, left) ∧
      exponent left = .ok (none, left) ∧ isNegative = false ∧
      significand 0 whole = (value, []) := by
  rw [number, bind_apply_eq_ok_iff] at h
  obtain ⟨whole, afterWhole, hwhole, h⟩ := h
  rw [bind_apply_eq_ok_iff] at h
  obtain ⟨part, afterPart, hpart, h⟩ := h
  rw [bind_apply_eq_ok_iff] at h
  obtain ⟨power, afterPower, hpower, h⟩ := h
  cases hsignificand : significand 0 whole with
  | mk found dropped =>
  rw [hsignificand] at h
  dsimp only at h
  split at h
  · rename_i hplain
    simp only [Bool.and_eq_true, Option.isNone_iff_eq_none, List.isEmpty_iff] at hplain
    obtain ⟨⟨rfl, rfl⟩, rfl⟩ := hplain
    obtain ⟨-, rfl⟩ := point_ne_of_fraction hpart
    obtain ⟨-, rfl⟩ := notMem_of_exponent hpower
    cases isNegative with
    | false =>
      cases h
      exact ⟨whole, hwhole, hpart, hpower, rfl, hsignificand⟩
    | true => cases h
  · split at h
    · simp only [bind_apply_eq_ok_iff] at h
      obtain ⟨_, _, -, _, _, hthrow, -⟩ := h
      cases hthrow
    · cases h

/-- What follows the digits of a number is no digit. -/
theorem noDigit_tail (numeral : Numeral) (hends : EndsNumber rest) :
    NoDigit (numeral.tail ++ rest) := by
  intro c hc
  rw [Numeral.tail] at hc
  cases hfraction : numeral.fraction with
  | some places =>
    simp only [hfraction, Option.map_some, Option.getD_some, List.cons_append, List.head?_cons,
      Option.mem_some_iff] at hc
    exact hc ▸ rfl
  | none =>
    cases hexponent : numeral.exponent with
    | some power =>
      simp only [hfraction, hexponent, Option.map_none, Option.map_some, Option.getD_none,
        Option.getD_some, List.nil_append, List.cons_append, List.head?_cons,
        Option.mem_some_iff] at hc
      have hmark := power.mark_mem
      rw [hc] at hmark
      simp only [List.mem_cons, List.not_mem_nil, or_false] at hmark
      rcases hmark with rfl | rfl <;> rfl
    | none =>
      simp only [hfraction, hexponent, Option.map_none, Option.getD_none, List.nil_append] at hc
      exact (hends c hc).1

/-- The digits of a number that fits are read as the number. -/
theorem number_toDigits {count : Nat} (hcount : count < Bytes.end64) (hends : EndsNumber rest) :
    number false (Nat.toDigits 10 count ++ rest) = .ok (some count, rest) := by
  have hwhole := wholeDigits_toDigits count fun c hc => (hends c hc).1
  have hpoint : rest.head? ≠ some '.' := fun hc => (hends '.' hc).2.1 rfl
  have hfits : significand 0 (Nat.toDigits 10 count) = (count, []) := by
    rw [significand_of_lt (by rwa [Nat.ofDigitChars_ten_toDigits]), Nat.ofDigitChars_ten_toDigits]
  rw [number, bind_of_ok hwhole, bind_of_ok (fraction_of_ne_point hpoint),
    bind_of_ok (exponent_of_notMem fun c hc => (hends c hc).2.2), hfits]
  rfl

/-- Of the numbers only natural ones that fit have a value, which is that of their digits. -/
theorem natural_of_number {numeral : Numeral} {isNegative : Bool} {value : Nat}
    {left : List Char} (hends : EndsNumber rest)
    (h : number isNegative (numeral.unsigned ++ rest) = .ok (some value, left)) :
    isNegative = false ∧ numeral.whole = value ∧ value < Bytes.end64 ∧
      numeral.fraction = none ∧ numeral.exponent = none := by
  obtain ⟨whole, hwhole, hpart, hpower, hsign, hfits⟩ := of_number_eq_some h
  rw [Numeral.unsigned, List.append_assoc,
    wholeDigits_toDigits numeral.whole (noDigit_tail numeral hends)] at hwhole
  cases hwhole
  obtain ⟨hvalue, hlt⟩ := ofDigitChars_of_significand (by decide) hfits
  rw [Nat.ofDigitChars_ten_toDigits] at hvalue
  have hfraction : numeral.fraction = none := by
    by_contra hsome
    obtain ⟨places, hplaces⟩ := Option.ne_none_iff_exists'.mp hsome
    apply (point_ne_of_fraction hpart).1
    rw [Numeral.tail, hplaces]
    rfl
  have hexponent : numeral.exponent = none := by
    by_contra hsome
    obtain ⟨exponent, hexponent⟩ := Option.ne_none_iff_exists'.mp hsome
    refine (notMem_of_exponent hpower).1 exponent.mark ?_ exponent.mark_mem
    rw [Numeral.tail, hfraction, hexponent]
    rfl
  exact ⟨hsign, hvalue, hlt, hfraction, hexponent⟩

end Token

end JarCensus.Json
