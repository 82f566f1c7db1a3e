import JarCensus.Proofs.Config.Rows

/-!
# Reading the fields of an object

Reading a field changes what was read so far. When the changes are those of a relation
between states, reading an object goes through states that the relation puts in a row, and
fails where there is no next state.
-/

namespace JarCensus.Config

open Json (Reader Tree Spells SpellsBare SpellsField SpellsMore Blank Fails map_of_ok)
open Json.Token (space isSpace dropSpace)

variable {α β : Type} {name : String} {tree : Tree} {text rest body : List Char} {c : Char}
  {isFirst : Bool}

/-! ## Names -/

/-- The name of the first field is next. -/
theorem nextField_first (h : Json.Token.string body = .ok (name.toList, rest)) :
    nextField true ('"' :: body) = .ok (some name, rest) := by
  change (do return some (String.ofList (← Json.Token.string)) : Reader (Option String)) body = _
  rw [bind_of_ok h, String.ofList_toList]
  rfl

/-- After a comma the name of another field is next. -/
theorem nextField_comma {blanks : List Char} (hblanks : Blank blanks)
    (h : Json.Token.string body = .ok (name.toList, rest)) :
    nextField false (',' :: (blanks ++ '"' :: body)) = .ok (some name, rest) := by
  have hdrop : dropSpace (blanks ++ '"' :: body) = '"' :: body := by
    rw [Json.Token.dropSpace_append hblanks, Json.Token.dropSpace_cons rfl]
  rw [nextField]
  dsimp only
  rw [space_bind_cons _ (rfl : isSpace ',' = false)]
  generalize hcore : ',' :: (blanks ++ '"' :: body) = core
  rw [bind_of_ok (rfl : (get : Reader (List Char)) core = .ok (core, core))]
  split
  · cases hcore
  · cases hcore
  · cases hcore
    rw [if_neg Bool.false_ne_true, if_pos rfl, hdrop]
    change (do return some (String.ofList (← Json.Token.string)) : Reader (Option String)) body = _
    rw [bind_of_ok h, String.ofList_toList]
    rfl

/-- There is no next field where the object ends. -/
theorem nextField_end {blanks : List Char} (hblanks : Blank blanks) (rest : List Char) :
    nextField isFirst (blanks ++ '\x7d' :: rest) = .ok (none, '\x7d' :: rest) := by
  have hskips : Skips (nextField isFirst) := skips_space_bind _
  rw [hskips _ _ hblanks]
  rfl

/-- What follows the name of a field: a colon and the spelling of a tree. -/
def AfterName (tree : Tree) (text : List Char) : Prop :=
  ∃ blanks value, Blank blanks ∧ Spells tree value ∧ text = blanks ++ ':' :: value

/-- The name of a field that is left is next, and its colon and value follow. -/
theorem exists_nextField {own before : List Char} (hbefore : Separates isFirst before)
    (h : SpellsField (name, tree) own) (rest : List Char) :
    ∃ after, AfterName tree after ∧
      nextField isFirst (before ++ own ++ rest) = .ok (some name, after ++ rest) := by
  have hskips : Skips (nextField isFirst) := skips_space_bind _
  obtain @⟨_, _, lead, label, after, value, hlead, hlabel, hafter, hvalue⟩ := h
  obtain ⟨body, rfl, hbody⟩ := Json.Token.exists_string_of_spellsString hlabel
  have hname := hbody (after ++ ':' :: (value ++ rest))
  refine ⟨_, ⟨after, value, hafter, hvalue, rfl⟩, ?_⟩
  simp only [List.append_assoc, List.cons_append]
  cases hbefore with
  | first =>
    rw [List.nil_append, hskips _ _ hlead]
    exact nextField_first hname
  | comma hfront =>
    rw [List.append_assoc, hskips _ _ hfront, List.singleton_append]
    exact nextField_comma hlead hname

/-- Where a field is left its name is next, and the fields after it follow. -/
theorem exists_nextField_of_remains {fields : List (String × Tree)}
    (h : Remains SpellsField isFirst ((name, tree) :: fields) text) (rest : List Char) :
    ∃ after others, AfterName tree after ∧ SpellsMore SpellsField fields others ∧
      Stops (others ++ '\x7d' :: rest) ∧
      nextField isFirst (text ++ '\x7d' :: rest) =
        .ok (some name, after ++ (others ++ '\x7d' :: rest)) := by
  obtain _ | @⟨_, _, before, own, others, hbefore, hown, hothers⟩ := h
  obtain ⟨after, hafter, hname⟩ := exists_nextField hbefore hown (others ++ '\x7d' :: rest)
  have hstops : Stops (others ++ '\x7d' :: rest) := stops_of_more hothers (by simp [Stops])
  rw [List.append_assoc]
  exact ⟨after, others, hafter, hothers, hstops, hname⟩

/-! ## Values -/

/-- The colon after a name is passed over, with the blanks in front. -/
theorem colon_append {blanks : List Char} (hblanks : Blank blanks) (rest : List Char) :
    colon (blanks ++ ':' :: rest) = .ok ((), rest) := by
  have hskips : Skips colon := skips_space_bind _
  rw [hskips _ _ hblanks]
  rfl

/-- A fault of the fields is one wherever it is found. -/
theorem fails_fieldFault (cause : Json.Cause) (text : List Char) :
    Fails (fieldFault cause : Reader α) text := by
  rw [fieldFault, Fails, bind_of_ok (rfl : space text = .ok ((), dropSpace text))]
  generalize dropSpace text = left
  rw [bind_of_ok (rfl : (get : Reader (List Char)) left = .ok (left, left))]
  split <;> exact ⟨_, rfl⟩

/-- A field that was not read before is read when its reader takes its value. -/
theorem once_of_describes (name : String) {read : Reader α} {describes : α → Tree → Prop}
    (hdecides : Decides read describes) {value : α} (hvalue : describes value tree)
    (h : AfterName tree text) (hstops : Stops rest) :
    ∃ blanks, Blank blanks ∧
      once name none read (text ++ rest) = .ok (some value, blanks ++ rest) := by
  obtain ⟨before, own, hbefore, hown, rfl⟩ := h
  obtain ⟨blanks, hblanks, hread⟩ := hdecides.reads hvalue _ _ hown hstops
  refine ⟨blanks, hblanks, ?_⟩
  rw [List.append_assoc, List.cons_append, once, if_neg (by simp),
    bind_of_ok (colon_append hbefore _)]
  exact map_of_ok hread

/-- A field is not read a second time. -/
theorem fails_once_of_isSome {read : Reader α} {before : Option α} (h : before.isSome = true)
    (text : List Char) : Fails (once name before read) text := by
  rw [once, if_pos h]
  exact fails_fieldFault _ _

/-- A field is not read when its reader does not take its value. -/
theorem fails_once_of_not_describes {read : Reader α} {describes : α → Tree → Prop}
    (hdecides : Decides read describes) (hother : ¬ ∃ value, describes value tree)
    (before : Option α) (h : AfterName tree text) (hstops : Stops rest) :
    Fails (once name before read) (text ++ rest) := by
  obtain ⟨blanks, own, hblanks, hown, rfl⟩ := h
  cases before with
  | some value => exact fails_once_of_isSome rfl _
  | none =>
    rw [List.append_assoc, List.cons_append, once, if_neg (by simp), Fails,
      bind_of_ok (colon_append hblanks _)]
    exact (hdecides.refuses hother _ _ hown hstops).map

/-! ## All fields -/

/-- Whether a reader of fields changes a state as a relation says. -/
structure DecidesField (field : String → β → Reader β) (takes : β → String → Tree → β → Prop) :
    Prop where
  reads {state next : β} {name : String} {tree : Tree} {text rest : List Char} :
    takes state name tree next → AfterName tree text → Stops rest →
      ∃ blanks, Blank blanks ∧ field name state (text ++ rest) = .ok (next, blanks ++ rest)
  refuses {state : β} {name : String} {tree : Tree} {text rest : List Char} :
    (¬ ∃ next, takes state name tree next) → AfterName tree text → Stops rest →
      Fails (field name state) (text ++ rest)

/-- Whether fields lead from a state to a final one. -/
inductive Leads (takes : β → String → Tree → β → Prop) : β → List (String × Tree) → β → Prop where
  /-- No field changes nothing. -/
  | nil {state : β} : Leads takes state [] state
  /-- A field leads to the next state. -/
  | cons {state next final : β} {name : String} {tree : Tree} {fields : List (String × Tree)} :
    takes state name tree next → Leads takes next fields final →
    Leads takes state ((name, tree) :: fields) final

variable {field : String → β → Reader β} {takes : β → String → Tree → β → Prop}
  {fields : List (String × Tree)} {state final : β} {fuel : Nat}

/-- The fields that are left are read to the state to which they lead, if there is enough fuel. -/
theorem readFields_of_leads (hdecides : DecidesField field takes)
    (hleads : Leads takes state fields final) (hfuel : fields.length < fuel)
    (h : Remains SpellsField isFirst fields text) (rest : List Char) :
    readFields field fuel isFirst state (text ++ '\x7d' :: rest) = .ok (final, '\x7d' :: rest) := by
  induction hleads generalizing fuel isFirst text with
  | nil =>
    obtain ⟨fuel, rfl⟩ : ∃ smaller, fuel = smaller + 1 := ⟨fuel - 1, by omega⟩
    obtain hblanks | _ := h
    rw [readFields, bind_of_ok (nextField_end hblanks rest)]
    rfl
  | @cons state next final name tree fields htakes hleads ih =>
    obtain ⟨fuel, rfl⟩ : ∃ smaller, fuel = smaller + 1 := ⟨fuel - 1, by omega⟩
    obtain ⟨after, others, hafter, hothers, hstops, hname⟩ := exists_nextField_of_remains h rest
    obtain ⟨blanks, hblanks, hread⟩ := hdecides.reads htakes hafter hstops
    have hleft := ih (by simpa using hfuel) (remains_of_more hothers hblanks)
    rw [List.append_assoc] at hleft
    rw [readFields, bind_of_ok hname, ← hleft]
    exact bind_of_ok hread

/-- Fields are not read when they lead to no state. -/
theorem fails_readFields_of_not_leads (hdecides : DecidesField field takes)
    (hnone : ¬ ∃ final, Leads takes state fields final) (hfuel : fields.length < fuel)
    (h : Remains SpellsField isFirst fields text) (rest : List Char) :
    Fails (readFields field fuel isFirst state) (text ++ '\x7d' :: rest) := by
  induction fields generalizing fuel isFirst state text with
  | nil => exact absurd ⟨state, .nil⟩ hnone
  | cons first fields ih =>
    obtain ⟨name, tree⟩ := first
    obtain ⟨fuel, rfl⟩ : ∃ smaller, fuel = smaller + 1 := ⟨fuel - 1, by omega⟩
    obtain ⟨after, others, hafter, hothers, hstops, hname⟩ := exists_nextField_of_remains h rest
    rw [readFields, Fails, bind_of_ok hname]
    -- Either the field changes the state and the fault is among the fields behind it, or the field
    -- itself is the fault.
    by_cases htakes : ∃ next, takes state name tree next
    · obtain ⟨next, htakes⟩ := htakes
      obtain ⟨blanks, hblanks, hread⟩ := hdecides.reads htakes hafter hstops
      have hnone' : ¬ ∃ final, Leads takes next fields final := by
        rintro ⟨final, hleads⟩
        exact hnone ⟨final, .cons htakes hleads⟩
      obtain ⟨fault, hleft⟩ := ih hnone' (by simpa using hfuel) (remains_of_more hothers hblanks)
      rw [List.append_assoc] at hleft
      exact ⟨fault, (bind_of_ok hread).trans hleft⟩
    · exact (hdecides.refuses htakes hafter hstops).bind

/-! ## Records -/

section Records

variable {expected : String} {blank : β} {ofFields : β → Reader α} {ofItems : Reader α}

/-- After a bracket the items of a record are read. -/
theorem readRecord_bracket (text : List Char) :
    readRecord expected blank field ofFields ofItems ('[' :: text) = (do
      let record ← ofItems
      endArray
      return record : Reader α) text := rfl

/-- After a brace the fields of a record are read. -/
theorem readRecord_brace (text : List Char) :
    readRecord expected blank field ofFields ofItems ('\x7b' :: text) = (do
      let fields ← readFields field (text.length + 1) true blank
      let record ← ofFields fields
      modify (·.drop 1)
      return record : Reader α) text := rfl

/-- What starts with neither a bracket nor a brace is not taken for a record. -/
theorem fails_readRecord (hspace : isSpace c = false) (hc : c ≠ '[' ∧ c ≠ '\x7b')
    (text : List Char) :
    Fails (readRecord expected blank field ofFields ofItems) (c :: text) := by
  rw [readRecord, Fails, space_bind_cons _ hspace]
  generalize hcore : c :: text = core
  rw [bind_of_ok (rfl : (get : Reader (List Char)) core = .ok (core, core))]
  split
  · exact absurd (List.cons.inj hcore).1 hc.1
  · exact absurd (List.cons.inj hcore).1 hc.2
  · exact fails_wrongKind ..

/-- A tree that is neither a row nor an object is not taken for a record. -/
theorem refuses_readRecord (harray : ¬ ∃ items, tree = .array items)
    (hobject : ¬ ∃ fields, tree = .object fields) :
    Refuses (readRecord expected blank field ofFields ofItems) tree := by
  refine refuses_of_spellsBare (skips_space_bind _) fun tokens follow htokens _ => ?_
  obtain ⟨c, more, rfl, hc⟩ := exists_opens_of_spellsBare htokens
  apply fails_readRecord (isSpace_of_opens hc)
  constructor
  · rintro rfl
    exact harray (exists_array_of_opens hc)
  · rintro rfl
    exact hobject (exists_object_of_opens hc)

/-- An object is read when its fields lead to a state of which a record is made. -/
theorem readRecord_of_leads (hdecides : DecidesField field takes)
    (hleads : Leads takes blank fields final) {record : α}
    (hrecord : ∀ text, ofFields final text = .ok (record, text))
    (h : SpellsBare (.object fields) text) (rest : List Char) :
    readRecord expected blank field ofFields ofItems (text ++ rest) = .ok (record, rest) := by
  obtain _ | _ | _ | _ | _ | _ | @⟨_, inner, hfields⟩ := h
  have hread := readFields_of_leads hdecides hleads (length_lt_of_row hfields '\x7d' rest)
    (remains_of_row hfields) rest
  rw [List.cons_append, List.append_assoc, List.singleton_append, readRecord_brace,
    bind_of_ok hread, bind_of_ok (hrecord _)]
  rfl

/-- An object is not read when no record is made of any state to which its fields lead. -/
theorem fails_readRecord_of_leads (hdecides : DecidesField field takes)
    (hnone : ∀ final, Leads takes blank fields final → ∀ text, Fails (ofFields final) text)
    (h : SpellsBare (.object fields) text) (rest : List Char) :
    Fails (readRecord expected blank field ofFields ofItems) (text ++ rest) := by
  obtain _ | _ | _ | _ | _ | _ | @⟨_, inner, hfields⟩ := h
  have hfuel := length_lt_of_row hfields '\x7d' rest
  rw [List.cons_append, List.append_assoc, List.singleton_append, Fails, readRecord_brace]
  by_cases hleads : ∃ final, Leads takes blank fields final
  · obtain ⟨final, hleads⟩ := hleads
    rw [bind_of_ok (readFields_of_leads hdecides hleads hfuel (remains_of_row hfields) rest)]
    exact (hnone final hleads _).bind
  · exact (fails_readFields_of_not_leads hdecides hleads hfuel (remains_of_row hfields) rest).bind

end Records

end JarCensus.Config
