import JarCensus.Proofs.Config.Values

/-!
# Reading rows

What is left of a row is its items with a comma in front of each but the first. A reader of rows
takes the items one by one until the bracket, and fails on the first one that is not of its kind.
-/

namespace JarCensus.Config

open Json (Reader Tree Spells SpellsMore SpellsRow Blank Fails map_of_ok)
open Json.Token (isSpace dropSpace)

variable {α : Type} {tree : Tree} {text rest : List Char} {c : Char} {isFirst : Bool}

/-! ## What is left of a row -/

/-- What stands in front of an item: nothing or, after another item, a comma. -/
inductive Separates : Bool → List Char → Prop where
  /-- Nothing in front of the first item. -/
  | first : Separates true []
  /-- Blanks and a comma in front of another one. -/
  | comma {blanks : List Char} : Blank blanks → Separates false (blanks ++ [','])

/-- Whether a text spells what is left of a row. -/
inductive Remains (spells : α → List Char → Prop) (isFirst : Bool) :
    List α → List Char → Prop where
  /-- Nothing but blanks. -/
  | nil {blanks : List Char} : Blank blanks → Remains spells isFirst [] blanks
  /-- The next item and those that follow it. -/
  | cons {item : α} {items : List α} {before own others : List Char} :
    Separates isFirst before → spells item own → SpellsMore spells items others →
    Remains spells isFirst (item :: items) (before ++ own ++ others)

variable {spells : α → List Char → Prop} {items : List α}

/-- At the start a whole row is left. -/
theorem remains_of_row (h : SpellsRow spells items text) : Remains spells true items text := by
  cases h with
  | none hblanks => exact .nil hblanks
  | some hitem hmore => exact .cons .first hitem hmore

/-- After an item the items that follow are left. -/
theorem remains_of_more {blanks : List Char} (h : SpellsMore spells items text)
    (hblanks : Blank blanks) : Remains spells false items (blanks ++ text) := by
  cases h with
  | nil => exact .nil (by rwa [List.append_nil])
  | @cons item items own others hitem hmore =>
    have hremains := Remains.cons (.comma hblanks) hitem hmore
    simpa only [List.append_assoc, List.cons_append, List.nil_append] using hremains

/-- An item ends where others follow or the row ends. -/
theorem stops_of_more (h : SpellsMore spells items text) (hstops : Stops rest) :
    Stops (text ++ rest) := by
  cases h with
  | nil => exact hstops
  | cons hitem hmore =>
    intro c hc
    cases hc
    exact List.mem_cons_self

/-- There is a character for each item that follows another. -/
theorem length_le_of_more (h : SpellsMore spells items text) :
    items.length ≤ text.length := by
  induction h with
  | nil => exact Nat.le_refl 0
  | cons hitem hmore ih =>
    simp only [List.length_cons, List.length_append]
    omega

/-- A text has a character for each item that is left, apart from one. -/
theorem length_le_of_remains (h : Remains spells isFirst items text) :
    items.length ≤ text.length + 1 := by
  cases h with
  | nil hblanks => exact Nat.zero_le _
  | cons hbefore hitem hmore =>
    have hle := length_le_of_more hmore
    simp only [List.length_cons, List.length_append]
    omega

/-! ## Items -/

/-- A row does not end where a tree starts. -/
theorem ne_bracket_of_opens (h : Opens tree c) : c ≠ ']' := by
  rintro rfl
  cases tree <;> simp_all [Opens]

/-- The first item is next. -/
theorem nextItem_first (hspace : isSpace c = false) (hc : c ≠ ']') (text : List Char) :
    nextItem true (c :: text) = .ok (true, c :: text) := by
  rw [nextItem, space_bind_cons _ hspace]
  generalize hcore : c :: text = core
  rw [bind_of_ok (rfl : (get : Reader (List Char)) core = .ok (core, core))]
  split
  · cases hcore
  · exact absurd (List.cons.inj hcore).1 hc
  · rfl

/-- After a comma another item is next. -/
theorem nextItem_comma {blanks : List Char} (hblanks : Blank blanks) (hspace : isSpace c = false)
    (hc : c ≠ ']') (text : List Char) :
    nextItem false (',' :: (blanks ++ c :: text)) = .ok (true, c :: text) := by
  rw [nextItem, space_bind_cons _ (rfl : isSpace ',' = false)]
  generalize hcore : ',' :: (blanks ++ c :: text) = core
  rw [bind_of_ok (rfl : (get : Reader (List Char)) core = .ok (core, core))]
  split
  · cases hcore
  · cases hcore
  · cases hcore
    rw [if_neg Bool.false_ne_true, if_pos rfl,
      bind_of_ok (rfl : (set (blanks ++ c :: text) : Reader Unit) _ = .ok (_, _)),
      bind_of_ok (Json.Token.space_of_append hblanks hspace text)]
    generalize hcore : c :: text = core
    rw [bind_of_ok (rfl : (get : Reader (List Char)) core = .ok (core, core))]
    split
    · cases hcore
    · exact absurd (List.cons.inj hcore).1 hc
    · rfl

/-- There is a next item where one is left. -/
theorem exists_nextItem {own before : List Char} (hbefore : Separates isFirst before)
    (h : Spells tree own) (rest : List Char) :
    ∃ more, Spells tree more ∧
      nextItem isFirst (before ++ own ++ rest) = .ok (true, more ++ rest) := by
  have hskips : Skips (nextItem isFirst) := skips_space_bind _
  obtain ⟨blanks, c, more, rfl, hblanks, hc, hspells⟩ := exists_spells_drop h
  refine ⟨c :: more, hspells, ?_⟩
  cases hbefore with
  | first =>
    rw [List.nil_append, List.append_assoc, hskips _ _ hblanks]
    exact nextItem_first (isSpace_of_opens hc) (ne_bracket_of_opens hc) _
  | comma hfront =>
    rw [List.append_assoc, List.append_assoc, hskips _ _ hfront, List.singleton_append,
      List.append_assoc]
    exact nextItem_comma hblanks (isSpace_of_opens hc) (ne_bracket_of_opens hc) _

/-- Where an item is left it is next, and the items after it follow. -/
theorem exists_nextItem_of_remains {items : List Tree}
    (h : Remains Spells isFirst (tree :: items) text) (rest : List Char) :
    ∃ more others, Spells tree more ∧ SpellsMore Spells items others ∧
      Stops (others ++ ']' :: rest) ∧
      nextItem isFirst (text ++ ']' :: rest) = .ok (true, more ++ (others ++ ']' :: rest)) := by
  obtain _ | @⟨_, _, before, own, others, hbefore, hown, hothers⟩ := h
  obtain ⟨more, hmore, hnext⟩ := exists_nextItem hbefore hown (others ++ ']' :: rest)
  have hstops : Stops (others ++ ']' :: rest) := stops_of_more hothers (by simp [Stops])
  rw [List.append_assoc]
  exact ⟨more, others, hmore, hothers, hstops, hnext⟩

/-- There is no next item where the row ends. -/
theorem nextItem_end {blanks : List Char} (hblanks : Blank blanks) (rest : List Char) :
    nextItem isFirst (blanks ++ ']' :: rest) = .ok (false, ']' :: rest) := by
  have hskips : Skips (nextItem isFirst) := skips_space_bind _
  rw [hskips _ _ hblanks]
  rfl

/-- The items that are left are read when each of them is, if there is enough fuel. -/
theorem readItems_of_remains {read : Reader α} {describes : α → Tree → Prop}
    (hdecides : Decides read describes) {values : List α} {items : List Tree}
    (hvalues : List.Forall₂ describes values items) {fuel : Nat} (hfuel : items.length < fuel)
    (done : Array α) (h : Remains Spells isFirst items text) (rest : List Char) :
    readItems read fuel isFirst done (text ++ ']' :: rest) =
      .ok (done ++ values.toArray, ']' :: rest) := by
  induction hvalues generalizing fuel isFirst done text with
  | nil =>
    obtain ⟨fuel, rfl⟩ : ∃ smaller, fuel = smaller + 1 := ⟨fuel - 1, by omega⟩
    obtain hblanks | _ := h
    rw [readItems, bind_of_ok (nextItem_end hblanks rest), Array.append_empty]
    rfl
  | @cons value item values items hvalue hvalues ih =>
    obtain ⟨fuel, rfl⟩ : ∃ smaller, fuel = smaller + 1 := ⟨fuel - 1, by omega⟩
    obtain ⟨more, others, hmore, hothers, hstops, hnext⟩ := exists_nextItem_of_remains h rest
    obtain ⟨blanks, hblanks, hread⟩ := hdecides.reads hvalue _ _ hmore hstops
    have hleft := ih (by simpa using hfuel) (done.push value) (remains_of_more hothers hblanks)
    have hdone : done ++ (value :: values).toArray = done.push value ++ values.toArray := by
      apply Array.ext'
      simp
    rw [readItems, bind_of_ok hnext, hdone, ← hleft, List.append_assoc]
    exact bind_of_ok hread

/-- Items are not read when one of them is not. -/
theorem fails_readItems_of_remains {read : Reader α} {describes : α → Tree → Prop}
    (hdecides : Decides read describes) {items : List Tree} {fuel : Nat}
    (hfuel : items.length < fuel) (done : Array α)
    (hother : ¬ ∃ values, List.Forall₂ describes values items)
    (h : Remains Spells isFirst items text) (rest : List Char) :
    Fails (readItems read fuel isFirst done) (text ++ ']' :: rest) := by
  induction items generalizing fuel isFirst done text with
  | nil => exact absurd ⟨[], .nil⟩ hother
  | cons item items ih =>
    obtain ⟨fuel, rfl⟩ : ∃ smaller, fuel = smaller + 1 := ⟨fuel - 1, by omega⟩
    obtain ⟨more, others, hmore, hothers, hstops, hnext⟩ := exists_nextItem_of_remains h rest
    rw [readItems, Fails, bind_of_ok hnext]
    by_cases hitem : ∃ value, describes value item
    · obtain ⟨value, hvalue⟩ := hitem
      obtain ⟨blanks, hblanks, hread⟩ := hdecides.reads hvalue _ _ hmore hstops
      have hothers' : ¬ ∃ values, List.Forall₂ describes values items := by
        rintro ⟨values, hvalues⟩
        exact hother ⟨value :: values, .cons hvalue hvalues⟩
      have hleft := ih (by simpa using hfuel) (done.push value) hothers'
        (remains_of_more hothers hblanks)
      rw [List.append_assoc] at hleft
      rw [if_pos rfl, bind_of_ok hread]
      exact hleft
    · exact (hdecides.refuses hitem _ _ hmore hstops).bind

/-! ## Rows of texts -/

/-- The items of a row of texts are the texts. -/
theorem forall₂_isText_iff {values : List String} {items : List Tree} :
    List.Forall₂ IsText values items ↔ items = values.map .string := by
  constructor
  · intro h
    induction h with
    | nil => rfl
    | cons hitem hrest ih => rw [hitem, ih, List.map_cons]
  · rintro rfl
    rw [List.forall₂_map_right_iff]
    exact List.forall₂_same.mpr fun _ _ => rfl

/-- What starts with no bracket is not taken for a row of texts. -/
theorem fails_readStrings (hspace : isSpace c = false) (hc : c ≠ '[') (text : List Char) :
    Fails readStrings (c :: text) := by
  rw [readStrings, Fails, space_bind_cons _ hspace]
  generalize hcore : c :: text = core
  rw [bind_of_ok (rfl : (get : Reader (List Char)) core = .ok (core, core))]
  split
  · exact absurd (List.cons.inj hcore).1 hc
  · exact fails_wrongKind ..

/-- After a bracket the items are read. -/
theorem readStrings_bracket (text : List Char) :
    readStrings ('[' :: text) = (do
      let items ← readItems readString (text.length + 1) true #[]
      endArray
      return items.toList : Reader (List String)) text := rfl

/-- There is enough fuel for the items between brackets. -/
theorem length_lt_of_row (h : SpellsRow spells items text) (c : Char) (rest : List Char) :
    items.length < (text ++ c :: rest).length + 1 := by
  have hle := length_le_of_remains (remains_of_row h)
  simp only [List.length_append, List.length_cons]
  omega

/-- Rows of texts are taken for them, and nothing else is. -/
theorem decides_readStrings : Decides readStrings IsTexts where
  reads := by
    rintro values _ rfl
    refine reads_of_spellsBare (skips_space_bind _) fun tokens follow htokens _ => ?_
    obtain _ | _ | _ | _ | _ | @⟨_, inner, hitems⟩ := htokens
    have hread := readItems_of_remains decides_readString (forall₂_isText_iff.mpr rfl)
      (length_lt_of_row hitems ']' follow) #[] (remains_of_row hitems) follow
    rw [List.cons_append, List.append_assoc, List.singleton_append, readStrings_bracket,
      bind_of_ok hread, bind_of_ok (rfl : endArray (']' :: follow) = .ok ((), follow)),
      Array.empty_append]
    rfl
  refuses := by
    intro tree hother
    refine refuses_of_spellsBare (skips_space_bind _) fun tokens follow htokens _ => ?_
    by_cases harray : ∃ items, tree = .array items
    · obtain ⟨items, rfl⟩ := harray
      obtain _ | _ | _ | _ | _ | @⟨_, inner, hitems⟩ := htokens
      have hnone : ¬ ∃ values, List.Forall₂ IsText values items := by
        rintro ⟨values, hvalues⟩
        exact hother ⟨values, congrArg Tree.array (forall₂_isText_iff.mp hvalues)⟩
      have hfails := fails_readItems_of_remains decides_readString
        (length_lt_of_row hitems ']' follow) #[] hnone (remains_of_row hitems) follow
      rw [List.cons_append, List.append_assoc, List.singleton_append, Fails, readStrings_bracket]
      exact hfails.bind
    · obtain ⟨c, more, rfl, hc⟩ := exists_opens_of_spellsBare htokens
      apply fails_readStrings (isSpace_of_opens hc)
      rintro rfl
      exact harray (exists_array_of_opens hc)

/-! ## Rows that stand for records -/

/-- The next item that is left is read when its reader takes it. -/
theorem itemOr_of_remains {read : Reader α} {describes : α → Tree → Prop}
    (hdecides : Decides read describes) {value : α} {items : List Tree}
    (hvalue : describes value tree) (h : Remains Spells isFirst (tree :: items) text)
    (rest : List Char) :
    ∃ left, Remains Spells false items left ∧
      itemOr isFirst read (text ++ ']' :: rest) = .ok (some value, left ++ ']' :: rest) := by
  obtain ⟨more, others, hmore, hothers, hstops, hnext⟩ := exists_nextItem_of_remains h rest
  obtain ⟨blanks, hblanks, hread⟩ := hdecides.reads hvalue _ _ hmore hstops
  refine ⟨_, remains_of_more hothers hblanks, ?_⟩
  rw [itemOr, bind_of_ok hnext, List.append_assoc]
  exact map_of_ok hread

/-- The next item that is left is not read when its reader does not take it. -/
theorem fails_itemOr_of_remains {read : Reader α} {describes : α → Tree → Prop}
    (hdecides : Decides read describes) {items : List Tree}
    (hother : ¬ ∃ value, describes value tree) (h : Remains Spells isFirst (tree :: items) text)
    (rest : List Char) : Fails (itemOr isFirst read) (text ++ ']' :: rest) := by
  obtain ⟨more, others, hmore, hothers, hstops, hnext⟩ := exists_nextItem_of_remains h rest
  rw [itemOr, Fails, bind_of_ok hnext]
  exact (hdecides.refuses hother _ _ hmore hstops).map

/-- There is no next item where none is left. -/
theorem itemOr_of_remains_nil (read : Reader α) (h : Remains Spells isFirst [] text)
    (rest : List Char) : itemOr isFirst read (text ++ ']' :: rest) = .ok (none, ']' :: rest) := by
  obtain hblanks | _ := h
  rw [itemOr, bind_of_ok (nextItem_end hblanks rest)]
  rfl

/-- A row ends where no item is left. -/
theorem endArray_of_remains (h : Remains Spells isFirst [] text) (rest : List Char) :
    endArray (text ++ ']' :: rest) = .ok ((), rest) := by
  obtain hblanks | _ := h
  have hskips : Skips endArray := skips_space_bind _
  rw [hskips _ _ hblanks]
  rfl

/-- A row does not end where items are left. -/
theorem fails_endArray {items : List Tree} (h : Remains Spells false (tree :: items) text)
    (rest : List Char) : Fails endArray (text ++ ']' :: rest) := by
  obtain _ | @⟨_, _, _, own, others, hbefore, hown, hothers⟩ := h
  obtain _ | hblanks := hbefore
  have hskips : Skips endArray := skips_space_bind _
  rw [List.append_assoc, List.append_assoc, List.append_assoc, Fails, hskips _ _ hblanks,
    List.singleton_append, endArray, space_bind_cons _ (rfl : isSpace ',' = false)]
  generalize hcore : ',' :: (own ++ (others ++ ']' :: rest)) = core
  rw [bind_of_ok (rfl : (get : Reader (List Char)) core = .ok (core, core))]
  split
  · exact ⟨_, rfl⟩
  · cases hcore
  · rename_i left
    generalize dropSpace left = left
    split <;> exact ⟨_, rfl⟩
  · exact ⟨_, rfl⟩

end JarCensus.Config
