import JarCensus.Json.Spelling
import JarCensus.Proofs.Text.Utf8

/-!
# The written form of a value spells it

In either layout the text that is written for a value has the tokens of its tree in order,
with blanks between them only.
-/

namespace JarCensus.Json

variable {α : Type} {text blanks : List Char}

/-! ## Blanks around -/

/-- No characters are blanks. -/
theorem blank_nil : Blank [] := List.forall_mem_nil _

/-- Blanks after blanks are blanks. -/
theorem Blank.append (htext : Blank text) (hblanks : Blank blanks) : Blank (text ++ blanks) :=
  List.forall_mem_append.mpr ⟨htext, hblanks⟩

/-- Blanks in front of a tree and after it may be taken for its own. -/
theorem Spells.pad {tree : Tree} {before after : List Char} (hbefore : Blank before)
    (h : Spells tree text) (hafter : Blank after) : Spells tree (before ++ text ++ after) := by
  obtain @⟨_, lead, tokens, trail, hlead, htokens, htrail⟩ := h
  have hpadded := Spells.padded (hbefore.append hlead) htokens (htrail.append hafter)
  simpa only [List.append_assoc] using hpadded

/-- Blanks after a field may be taken for those of its value. -/
theorem SpellsField.append {field : String × Tree} (h : SpellsField field text)
    (hblanks : Blank blanks) : SpellsField field (text ++ blanks) := by
  obtain ⟨hbefore, hlabel, hafter, htree⟩ := h
  rw [List.append_assoc, List.cons_append]
  exact .named hbefore hlabel hafter (Spells.pad blank_nil htree hblanks)

section Rows

variable {spells : α → List Char → Prop} (hblanks : Blank blanks)
  (hpad : ∀ item text, spells item text → spells item (text ++ blanks))

include hpad

/-- Blanks after items that follow another may be taken for those of the last one. -/
theorem SpellsMore.append {items : List α} (hne : items ≠ [])
    (h : SpellsMore spells items text) : SpellsMore spells items (text ++ blanks) := by
  induction h with
  | nil => exact absurd rfl hne
  | @cons item rest own others hitem hrest ih =>
    rw [List.cons_append, List.append_assoc]
    cases hrest with
    | nil =>
      have hlast := SpellsMore.cons (hpad item own hitem) .nil
      rwa [List.append_nil] at hlast
    | cons hnext hothers => exact .cons hitem (ih (List.cons_ne_nil _ _))

include hblanks in
/-- Blanks after items may be taken for those of the last one. -/
theorem SpellsRow.append {items : List α} (h : SpellsRow spells items text) :
    SpellsRow spells items (text ++ blanks) := by
  cases h with
  | none htext => exact .none (htext.append hblanks)
  | @some item rest own others hitem hrest =>
    rw [List.append_assoc]
    cases hrest with
    | nil =>
      have hlast := SpellsRow.some (hpad item own hitem) .nil
      rwa [List.append_nil] at hlast
    | cons hnext hothers =>
      exact .some hitem (SpellsMore.append hpad (List.cons_ne_nil _ _) (.cons hnext hothers))

end Rows

/-! ## Texts -/

/-- A control character is spelled by its code unit. -/
theorem spellsChar_control {c : Char} (h : c.toNat < 0x20) :
    SpellsChar c
      ['\\', 'u', '0', '0', Nat.digitChar (c.toNat / 16), Nat.digitChar (c.toNat % 16)] := by
  have hunit : (UInt16.ofNat c.toNat).toNat = c.toNat := by
    rw [UInt16.toNat_ofNat']
    omega
  have hunits : Text.Utf16.encodeChar c = [UInt16.ofNat c.toNat] := if_pos (by omega)
  have hdigit (value : Nat) (hvalue : value < 16) :
      Hex.IsDigitOf value (Nat.digitChar value) := ⟨hvalue, .inl rfl⟩
  have hspells : SpellsUnit (UInt16.ofNat c.toNat)
      ['\\', 'u', '0', '0', Nat.digitChar (c.toNat / 16), Nat.digitChar (c.toNat % 16)] := by
    refine ⟨_, ?_, rfl⟩
    rw [hunit, Nat.div_eq_of_lt (by omega : c.toNat < 4096),
      Nat.div_eq_of_lt (by omega : c.toNat < 256), Nat.mod_eq_of_lt (by omega : c.toNat / 16 < 16)]
    exact .cons (hdigit 0 (by omega)) (.cons (hdigit 0 (by omega))
      (.cons (hdigit _ (by omega)) (.cons (hdigit _ (by omega)) .nil)))
  have hall := List.Forall₂.cons hspells .nil
  rw [← hunits] at hall
  exact .units hall

/-- A character is escaped to what spells it. -/
theorem spellsChar_escapeChar (c : Char) : SpellsChar c (escapeChar c) := by
  have hshort : ∀ pair ∈ shortEscapes, SpellsChar pair.2 ['\\', pair.1] :=
    fun _ hpair => .short hpair
  unfold escapeChar
  simp only [beq_iff_eq]
  split_ifs with hquote hslash hline hreturn htab hback hfeed hcontrol
  · exact hquote ▸ hshort ('"', '"') (by decide)
  · exact hslash ▸ hshort ('\\', '\\') (by decide)
  · exact hline ▸ hshort ('n', '\n') (by decide)
  · exact hreturn ▸ hshort ('r', '\r') (by decide)
  · exact htab ▸ hshort ('t', '\t') (by decide)
  · exact hback ▸ hshort ('b', '\x08') (by decide)
  · exact hfeed ▸ hshort ('f', '\x0c') (by decide)
  · exact spellsChar_control hcontrol
  · exact .plain hquote hslash (Nat.le_of_not_lt hcontrol)

/-- A text between quotes spells it. -/
theorem spellsString_quote (value : String) : SpellsString value (quote value) := by
  refine ⟨value.toList.flatMap escapeChar, ?_, rfl⟩
  induction value.toList with
  | nil => exact .nil
  | cons c rest ih => exact .cons (spellsChar_escapeChar c) ih

/-! ## Values -/

/-- What stands in front of an item is blank. -/
theorem blank_lead (layout : Layout) (level : Nat) : Blank (layout.lead level) := by
  cases layout with
  | compact => exact blank_nil
  | indented =>
    intro c hc
    rcases List.mem_cons.mp hc with rfl | hc
    · rfl
    · rw [List.eq_of_mem_replicate hc]
      rfl

/-- A colon is followed by blanks only. -/
theorem exists_colon (layout : Layout) : ∃ blanks, Blank blanks ∧ layout.colon = ':' :: blanks := by
  cases layout with
  | compact => exact ⟨[], blank_nil, rfl⟩
  | indented => exact ⟨[' '], by simp [Blank]; rfl, rfl⟩

/-- A written field spells it, with what is blank around it. -/
theorem spellsField_quote {tree : Tree} {own : List Char} (layout : Layout) (level : Nat)
    (name : String) (h : SpellsBare tree own) :
    SpellsField (name, tree) (layout.lead level ++ quote name ++ layout.colon ++ own) := by
  obtain ⟨blanks, hblanks, hcolon⟩ := exists_colon layout
  have hfield := SpellsField.named (blank_lead layout level) (spellsString_quote name) blank_nil
    (Spells.padded hblanks h blank_nil)
  rw [hcolon]
  simpa only [List.append_nil, List.append_assoc, List.cons_append] using hfield

/-- What is written for a natural number spells it. -/
theorem spellsBare_toDigits (value : Nat) :
    SpellsBare (.number (.ofNat value)) (Nat.toDigits 10 value) := by
  have hchars : (Numeral.ofNat value).chars = Nat.toDigits 10 value := List.append_nil _
  exact hchars ▸ .number (.ofNat value)

mutual

/-- The written form of a value spells it. -/
theorem spellsBare_write (layout : Layout) (level : Nat) :
    (value : Value) → SpellsBare value.tree (write layout level value)
  | .null => .null
  | .bool true => .true
  | .bool false => .false
  | .number value => spellsBare_toDigits value
  | .string value => .string (spellsString_quote value)
  | .array [] => .array (.none blank_nil)
  | .array (item :: rest) => by
    have hitem := Spells.padded (blank_lead layout (level + 1))
      (spellsBare_write layout (level + 1) item) blank_nil
    have hitems : SpellsRow Spells (item.tree :: itemTrees rest) _ :=
      .some hitem (spellsMore_writeItems layout (level + 1) rest)
    have hrow := hitems.append (blank_lead layout level)
      fun _ _ hown => Spells.pad blank_nil hown (blank_lead layout level)
    simpa only [write, Value.tree, itemTrees, List.nil_append, List.append_nil,
      List.cons_append, List.append_assoc] using SpellsBare.array hrow
  | .object [] => .object (.none blank_nil)
  | .object ((name, value) :: rest) => by
    have hfield := spellsField_quote layout (level + 1) name
      (spellsBare_write layout (level + 1) value)
    have hfields : SpellsRow SpellsField ((name, value.tree) :: fieldTrees rest) _ :=
      .some hfield (spellsMore_writeFields layout (level + 1) rest)
    have hrow := hfields.append (blank_lead layout level)
      fun _ _ hown => hown.append (blank_lead layout level)
    simpa only [write, Value.tree, fieldTrees, List.cons_append, List.append_assoc] using
      SpellsBare.object hrow

/-- The written form of the items after the first spells them. -/
theorem spellsMore_writeItems (layout : Layout) (level : Nat) :
    (items : List Value) → SpellsMore Spells (itemTrees items) (writeItems layout level items)
  | [] => .nil
  | item :: rest => by
    have hitem := Spells.padded (blank_lead layout level)
      (spellsBare_write layout level item) blank_nil
    have hmore := SpellsMore.cons hitem (spellsMore_writeItems layout level rest)
    simpa only [writeItems, itemTrees, List.cons_append, List.append_nil,
      List.append_assoc] using hmore

/-- The written form of the fields after the first spells them. -/
theorem spellsMore_writeFields (layout : Layout) (level : Nat) :
    (fields : List (String × Value)) →
      SpellsMore SpellsField (fieldTrees fields) (writeFields layout level fields)
  | [] => .nil
  | (name, value) :: rest => by
    have hfield := spellsField_quote layout level name (spellsBare_write layout level value)
    have hmore := SpellsMore.cons hfield (spellsMore_writeFields layout level rest)
    simpa only [writeFields, fieldTrees, List.cons_append, List.append_assoc] using hmore

end

/-- The written form of a value spells it. -/
theorem spells_write (layout : Layout) (level : Nat) (value : Value) :
    Spells value.tree (write layout level value) := by
  have hspells := Spells.padded blank_nil (spellsBare_write layout level value) blank_nil
  rwa [List.append_nil, List.nil_append] at hspells

end JarCensus.Json
