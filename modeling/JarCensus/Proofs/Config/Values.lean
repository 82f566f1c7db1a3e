import JarCensus.Config.Document
import JarCensus.Config.Reader
import JarCensus.Proofs.Json.Token
import JarCensus.Proofs.Json.Written

/-!
# Which values the readers take

A reader of values takes exactly the spellings of the trees that describe a value of its
kind. It leaves what follows, with the blanks in between, and fails on every other tree.
-/

namespace JarCensus.Config

open Json (Reader Tree Numeral Spells SpellsBare Blank Fails fails_bind map_of_ok
  blank_nil)
open Json.Token (space isSpace)

variable {α : Type} {tree : Tree} {text tokens rest : List Char} {c : Char}

/-- Whether a value ends where a text begins. -/
def Stops (rest : List Char) : Prop := ∀ c ∈ rest.head?, c ∈ [',', ']', '\x7d']

/-- Whether a reader takes the spellings of a tree for a value. -/
def Reads (read : Reader α) (tree : Tree) (value : α) : Prop :=
  ∀ text rest, Spells tree text → Stops rest →
    ∃ blanks, Blank blanks ∧ read (text ++ rest) = .ok (value, blanks ++ rest)

/-- Whether a reader fails on the spellings of a tree. -/
def Refuses (read : Reader α) (tree : Tree) : Prop :=
  ∀ text rest, Spells tree text → Stops rest → Fails read (text ++ rest)

/-- Whether a reader takes the trees that describe a value and no others. -/
structure Decides (read : Reader α) (describes : α → Tree → Prop) : Prop where
  reads {value : α} {tree : Tree} : describes value tree → Reads read tree value
  refuses {tree : Tree} : (¬ ∃ value, describes value tree) → Refuses read tree

/-! ## First characters -/

/-- The characters with which the tokens of a tree may start. -/
def Opens : Tree → Char → Prop
  | .null, c => c = 'n'
  | .bool _, c => c = 't' ∨ c = 'f'
  | .number _, c => c = '-' ∨ c.isDigit = true
  | .string _, c => c = '"'
  | .array _, c => c = '['
  | .object _, c => c = '\x7b'

/-- The digits of a number start with one. -/
theorem exists_digit_toDigits (value : Nat) :
    ∃ c more, Nat.toDigits 10 value = c :: more ∧ c.isDigit = true := by
  obtain ⟨c, more, hdigits⟩ := List.exists_cons_of_ne_nil
    (Nat.toDigits_ne_nil (b := 10) (n := value))
  refine ⟨c, more, hdigits, ?_⟩
  exact Nat.isDigit_of_mem_toDigits (by omega) (by omega) (hdigits ▸ List.mem_cons_self)

/-- The tokens of a tree start with such a character. -/
theorem exists_opens_of_spellsBare (h : SpellsBare tree tokens) :
    ∃ c more, tokens = c :: more ∧ Opens tree c := by
  cases h with
  | null => exact ⟨_, _, rfl, rfl⟩
  | true => exact ⟨_, _, rfl, .inl rfl⟩
  | false => exact ⟨_, _, rfl, .inr rfl⟩
  | number numeral =>
    obtain ⟨c, more, hdigits, hc⟩ := exists_digit_toDigits numeral.whole
    cases hsign : numeral.isNegative with
    | true =>
      refine ⟨'-', numeral.unsigned, ?_, .inl rfl⟩
      rw [Numeral.chars, hsign]
      rfl
    | false =>
      refine ⟨c, more ++ numeral.tail, ?_, .inr hc⟩
      rw [Numeral.chars, hsign, Numeral.unsigned, hdigits]
      rfl
  | string htext =>
    obtain ⟨inner, -, rfl⟩ := htext
    exact ⟨_, _, rfl, rfl⟩
  | array hitems => exact ⟨_, _, rfl, rfl⟩
  | object hfields => exact ⟨_, _, rfl, rfl⟩

/-- No digit is a blank. -/
theorem isSpace_of_isDigit (hc : c.isDigit = true) : isSpace c = false := by
  by_contra hspace
  simp only [isSpace, Bool.or_eq_true, beq_iff_eq, Bool.not_eq_false] at hspace
  rcases hspace with ((rfl | rfl) | rfl) | rfl <;> cases hc

/-- No token starts with a blank. -/
theorem isSpace_of_opens (h : Opens tree c) : isSpace c = false := by
  cases tree with
  | null => exact h ▸ rfl
  | bool value => rcases h with rfl | rfl <;> rfl
  | number numeral =>
    rcases h with rfl | hc
    · rfl
    · exact isSpace_of_isDigit hc
  | string value => exact h ▸ rfl
  | array items => exact h ▸ rfl
  | object fields => exact h ▸ rfl

/-- Only null starts with an `n`. -/
theorem eq_null_of_opens (h : Opens tree 'n') : tree = .null := by
  cases tree <;> simp_all [Opens]

/-- Only texts start with a quote. -/
theorem exists_string_of_opens (h : Opens tree '"') : ∃ value, tree = .string value := by
  cases tree <;> simp_all [Opens]

/-- Only rows start with a bracket. -/
theorem exists_array_of_opens (h : Opens tree '[') : ∃ items, tree = .array items := by
  cases tree <;> simp_all [Opens]

/-- Only named values start with a brace. -/
theorem exists_object_of_opens (h : Opens tree '\x7b') : ∃ fields, tree = .object fields := by
  cases tree <;> simp_all [Opens]

/-- Only numbers start with a minus or a digit. -/
theorem exists_number_of_opens (h : Opens tree c) (hc : c = '-' ∨ c.isDigit = true) :
    ∃ numeral, tree = .number numeral := by
  cases tree with
  | number numeral => exact ⟨numeral, rfl⟩
  | bool value => rcases h with rfl | rfl <;> rcases hc with hc | hc <;> cases hc
  | null | string _ | array _ | object _ =>
    cases h
    rcases hc with hc | hc <;> cases hc

/-- A spelling is that of the tree without the blanks in front. -/
theorem exists_spells_drop (h : Spells tree text) :
    ∃ blanks c more, text = blanks ++ c :: more ∧ Blank blanks ∧ Opens tree c ∧
      Spells tree (c :: more) := by
  obtain ⟨hbefore, htokens, hafter⟩ := h
  obtain ⟨c, more, rfl, hc⟩ := exists_opens_of_spellsBare htokens
  refine ⟨_, c, _, by rw [List.append_assoc, List.cons_append], hbefore, hc, ?_⟩
  exact Spells.padded blank_nil htokens hafter

/-- A tree of the wrong kind is a fault, whatever follows. -/
theorem fails_wrongKind (expected : String) (text : List Char) :
    Fails (Json.Token.wrongKind expected : Reader α) text := by
  have hlast (rest : List Char) :
      Fails (do throw ⟨.wrongKind expected, ← get⟩ : Reader α) rest := ⟨_, rfl⟩
  rw [Json.Token.wrongKind, Fails, bind_of_ok (rfl : (get : Reader (List Char)) _ = .ok (_, _))]
  cases text with
  | nil => exact ⟨_, rfl⟩
  | cons c rest =>
    dsimp only
    split
    · exact fails_bind fun _ _ _ => fails_bind fun _ _ _ => hlast _
    · exact fails_bind fun _ _ _ => fails_bind fun _ _ _ => hlast _
    · exact fails_bind fun _ _ _ => fails_bind fun _ _ _ => hlast _
    · exact fails_bind fun _ _ _ => fails_bind fun _ _ _ => hlast _
    · exact fails_bind fun _ _ _ => fails_bind fun _ _ _ => hlast _
    · exact hlast _
    · exact hlast _
    · split
      · exact fails_bind fun _ _ _ => hlast _
      · exact ⟨_, rfl⟩

/-! ## Blanks in front -/

/-- Whether blanks in front make no difference to a reader. -/
def Skips (read : Reader α) : Prop :=
  ∀ blanks text, Blank blanks → read (blanks ++ text) = read text

/-- Blanks in front make no difference to a reader that passes over blanks first. -/
theorem skips_space_bind (body : Reader α) : Skips (space >>= fun _ => body) :=
  fun _ text hblanks => congrArg body (Json.Token.dropSpace_append hblanks text)

/-- A reader that passes over blanks first finds a first token in front. -/
theorem space_bind_cons (body : Reader α) (hc : isSpace c = false) (text : List Char) :
    (space >>= fun _ => body) (c :: text) = body (c :: text) :=
  congrArg body (Json.Token.dropSpace_cons hc text)

/-- No number goes on after blanks, where a value may end. -/
theorem endsNumber_append {blanks : List Char} (hblanks : Blank blanks) (hstops : Stops rest) :
    Json.Token.EndsNumber (blanks ++ rest) := by
  intro c hc
  cases blanks with
  | nil =>
    have hstop := hstops c hc
    simp only [List.mem_cons, List.not_mem_nil, or_false] at hstop
    rcases hstop with rfl | rfl | rfl <;> decide
  | cons blank blanks =>
    have hblank := hblanks blank List.mem_cons_self
    cases hc
    simp only [isSpace, Bool.or_eq_true, beq_iff_eq] at hblank
    rcases hblank with ((rfl | rfl) | rfl) | rfl <;> decide

/-- It is enough to read the tokens of a tree. -/
theorem reads_of_spellsBare {read : Reader α} {value : α} (hskips : Skips read)
    (h : ∀ tokens follow, SpellsBare tree tokens → Json.Token.EndsNumber follow →
      read (tokens ++ follow) = .ok (value, follow)) : Reads read tree value := by
  rintro _ rest ⟨hbefore, htokens, hafter⟩ hstops
  refine ⟨_, hafter, ?_⟩
  rw [List.append_assoc, List.append_assoc, hskips _ _ hbefore]
  exact h _ _ htokens (endsNumber_append hafter hstops)

/-- It is enough to fail on the tokens of a tree. -/
theorem refuses_of_spellsBare {read : Reader α} (hskips : Skips read)
    (h : ∀ tokens follow, SpellsBare tree tokens → Json.Token.EndsNumber follow →
      Fails read (tokens ++ follow)) : Refuses read tree := by
  rintro _ rest ⟨hbefore, htokens, hafter⟩ hstops
  rw [List.append_assoc, List.append_assoc, Fails, hskips _ _ hbefore]
  exact h _ _ htokens (endsNumber_append hafter hstops)

/-! ## Texts -/

/-- What starts with no quote is not taken for a text. -/
theorem fails_readString (hspace : isSpace c = false) (hc : c ≠ '"') (text : List Char) :
    Fails readString (c :: text) := by
  rw [readString, Fails, space_bind_cons _ hspace]
  generalize hcore : c :: text = core
  rw [bind_of_ok (rfl : (get : Reader (List Char)) core = .ok (core, core))]
  split
  · exact absurd (List.cons.inj hcore).1 hc
  · exact fails_wrongKind ..

/-- Texts are taken for texts, and nothing else is. -/
theorem decides_readString : Decides readString IsText where
  reads := by
    rintro value _ rfl
    refine reads_of_spellsBare (skips_space_bind _) fun tokens follow htokens _ => ?_
    obtain _ | _ | _ | _ | htext := htokens
    obtain ⟨body, rfl, hbody⟩ := Json.Token.exists_string_of_spellsString htext
    change (do return String.ofList (← Json.Token.string) : Reader String) (body ++ follow) = _
    rw [bind_of_ok (hbody follow), String.ofList_toList]
    rfl
  refuses := by
    intro tree hother
    refine refuses_of_spellsBare (skips_space_bind _) fun tokens follow htokens _ => ?_
    obtain ⟨c, more, rfl, hc⟩ := exists_opens_of_spellsBare htokens
    apply fails_readString (isSpace_of_opens hc)
    rintro rfl
    exact hother (exists_string_of_opens hc)

/-! ## Counts -/

/-- A number is taken for the count that it is. -/
theorem readCount_of_number {value : Nat} (hc : c.isDigit = true)
    (h : Json.Token.number false (c :: text) = .ok (some value, rest)) :
    readCount (c :: text) = .ok (value, rest) := by
  rw [readCount]
  dsimp only
  rw [space_bind_cons _ (isSpace_of_isDigit hc)]
  generalize hcore : c :: text = core at h
  rw [bind_of_ok (rfl : (get : Reader (List Char)) core = .ok (core, core))]
  split
  · cases hcore
    cases hc
  · cases hcore
    rw [if_pos hc, bind_of_ok h]
    rfl
  · cases hcore

/-- A number without a value is not taken for a count. -/
theorem fails_readCount_of_number (hc : c.isDigit = true)
    (h : ∀ value rest, Json.Token.number false (c :: text) ≠ .ok (some value, rest)) :
    Fails readCount (c :: text) := by
  rw [readCount, Fails]
  dsimp only
  rw [space_bind_cons _ (isSpace_of_isDigit hc)]
  generalize hcore : c :: text = core at h
  rw [bind_of_ok (rfl : (get : Reader (List Char)) core = .ok (core, core))]
  split
  · cases hcore
    cases hc
  · cases hcore
    rw [if_pos hc]
    refine fails_bind fun count rest hnumber => ?_
    cases count with
    | some value => exact absurd hnumber (h value rest)
    | none => exact ⟨_, rfl⟩
  · cases hcore

/-- A number with a minus is not taken for a count. -/
theorem fails_readCount_of_minus
    (h : ∀ value rest, Json.Token.number true text ≠ .ok (some value, rest)) :
    Fails readCount ('-' :: text) := by
  rw [readCount, Fails]
  dsimp only
  rw [space_bind_cons _ (rfl : isSpace '-' = false),
    bind_of_ok (rfl : (get : Reader (List Char)) _ = .ok (_, _))]
  refine fails_bind fun _ _ hset => ?_
  cases hset
  refine fails_bind fun count rest hnumber => ?_
  cases count with
  | some value => exact absurd hnumber (h value rest)
  | none => exact ⟨_, rfl⟩

/-- What starts with neither a digit nor a minus is not taken for a count. -/
theorem fails_readCount_of_other (hspace : isSpace c = false)
    (hc : ¬(c = '-' ∨ c.isDigit = true)) (text : List Char) :
    Fails readCount (c :: text) := by
  rw [readCount, Fails]
  dsimp only
  rw [space_bind_cons _ hspace]
  generalize hcore : c :: text = core
  rw [bind_of_ok (rfl : (get : Reader (List Char)) core = .ok (core, core))]
  split
  · exact absurd (.inl (List.cons.inj hcore).1) hc
  · cases hcore
    rw [if_neg fun hdigit => hc (.inr hdigit)]
    exact fails_wrongKind ..
  · exact fails_wrongKind ..

/-- Only natural numbers of 64 bits have a value. -/
theorem number_ne_of_not_isCount {numeral : Numeral}
    (hother : ¬ ∃ count, IsCount count (.number numeral))
    (hends : Json.Token.EndsNumber rest) (count : Nat) (left : List Char) :
    Json.Token.number numeral.isNegative (numeral.unsigned ++ rest) ≠ .ok (some count, left) := by
  intro h
  obtain ⟨hsign, rfl, hcount, hfraction, hexponent⟩ := Json.Token.natural_of_number hends h
  refine hother ⟨numeral.whole, ?_, hcount⟩
  obtain ⟨isNegative, whole, fraction, exponent⟩ := numeral
  cases hsign
  cases hfraction
  cases hexponent
  rfl

/-- Natural numbers of 64 bits are taken for counts, and nothing else is. -/
theorem decides_readCount : Decides readCount IsCount where
  reads := by
    rintro count _ ⟨rfl, hcount⟩
    refine reads_of_spellsBare (skips_space_bind _) fun tokens follow htokens hends => ?_
    obtain _ | _ | _ | _ := htokens
    have hnumber := Json.Token.number_toDigits hcount hends
    have hchars : (Numeral.ofNat count).chars = Nat.toDigits 10 count := List.append_nil _
    obtain ⟨c, more, hdigits, hc⟩ := exists_digit_toDigits count
    rw [hdigits, List.cons_append] at hnumber
    rw [hchars, hdigits, List.cons_append]
    exact readCount_of_number hc hnumber
  refuses := by
    intro tree hother
    refine refuses_of_spellsBare (skips_space_bind _) fun tokens follow htokens hends => ?_
    by_cases hnumber : ∃ numeral, tree = .number numeral
    · obtain ⟨numeral, rfl⟩ := hnumber
      obtain _ | _ | _ | _ := htokens
      have hne := number_ne_of_not_isCount hother hends
      rw [Numeral.chars]
      cases hsign : numeral.isNegative with
      | true =>
        rw [hsign] at hne
        exact fails_readCount_of_minus hne
      | false =>
        obtain ⟨c, more, hdigits, hc⟩ := exists_digit_toDigits numeral.whole
        rw [hsign, Numeral.unsigned, hdigits] at hne
        rw [Numeral.unsigned, hdigits]
        exact fails_readCount_of_number hc hne
    · obtain ⟨c, more, rfl, hc⟩ := exists_opens_of_spellsBare htokens
      apply fails_readCount_of_other (isSpace_of_opens hc)
      exact fun hsign => hnumber (exists_number_of_opens hc hsign)

/-! ## Values that may be absent -/

/-- Where no `n` comes first, the value is read. -/
theorem readOptional_of_ne (read : Reader α) (hspace : isSpace c = false) (hc : c ≠ 'n')
    (text : List Char) : readOptional read (c :: text) = (some <$> read) (c :: text) := by
  rw [readOptional, space_bind_cons _ hspace]
  generalize hcore : c :: text = core
  rw [bind_of_ok (rfl : (get : Reader (List Char)) core = .ok (core, core))]
  split
  · exact absurd (List.cons.inj hcore).1 hc
  · rfl

/-- A value that may be absent is null or what the reader of the value takes, when the latter
is never null. -/
theorem decides_readOptional {read : Reader α} {describes : α → Tree → Prop}
    (h : Decides read describes) (hnull : ¬ ∃ value, describes value .null) :
    Decides (readOptional read) (Nullable describes) := by
  have hskips : Skips (readOptional read) := skips_space_bind _
  have hpresent {tree : Tree} (htree : tree ≠ .null) {text : List Char}
      (htext : Spells tree text) (rest : List Char) : ∃ more, Spells tree more ∧
        readOptional read (text ++ rest) = (some <$> read) (more ++ rest) := by
    obtain ⟨blanks, c, more, rfl, hblanks, hc, hspells⟩ := exists_spells_drop htext
    refine ⟨_, hspells, ?_⟩
    rw [List.append_assoc, hskips _ _ hblanks, List.cons_append]
    refine readOptional_of_ne read (isSpace_of_opens hc) ?_ _
    rintro rfl
    exact htree (eq_null_of_opens hc)
  constructor
  · intro value tree hvalue
    cases hvalue with
    | null =>
      refine reads_of_spellsBare hskips fun tokens follow htokens _ => ?_
      cases htokens
      rfl
    | @value value _ hvalue =>
      intro text rest htext hstops
      have htree : tree ≠ .null := fun heq => hnull ⟨value, heq ▸ hvalue⟩
      obtain ⟨more, hmore, hread⟩ := hpresent htree htext rest
      obtain ⟨blanks, hblanks, hresult⟩ := h.reads hvalue _ _ hmore hstops
      rw [hread]
      exact ⟨blanks, hblanks, map_of_ok hresult⟩
  · intro tree hother text rest htext hstops
    have htree : tree ≠ .null := fun heq => hother ⟨none, heq ▸ .null⟩
    obtain ⟨more, hmore, hread⟩ := hpresent htree htext rest
    have hrefused : ¬ ∃ value, describes value tree := by
      rintro ⟨value, hvalue⟩
      exact hother ⟨some value, .value hvalue⟩
    rw [Fails, hread]
    exact (h.refuses hrefused _ _ hmore hstops).map

end JarCensus.Config
