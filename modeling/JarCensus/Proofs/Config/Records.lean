import JarCensus.Proofs.Config.Fields
import JarCensus.Proofs.Named

/-!
# Which documents the readers of records take

Each field of a record has a slot, which holds what the field of that name describes once it
has been read. The fields of an object lead to a state that holds them, unless one of them is
not known, comes twice or describes nothing.
-/

namespace JarCensus

open Json (Reader Tree Fails)

variable {α β : Type} {names : List String} {name other : String} {tree : Tree}
  {fields front back : List (String × Tree)} {describes : α → Tree → Prop}

/-! ## Names -/

/-- Names stay different when a new one is added. -/
theorem NamedFrom.append (h : NamedFrom names fields) (hname : name ∈ names)
    (hnew : fields.lookup name = none) : NamedFrom names (fields ++ [(name, tree)]) := by
  rw [lookup_eq_none_iff_notMem] at hnew
  constructor
  · rw [List.map_append, List.map_singleton, List.nodup_append]
    refine ⟨h.1, List.pairwise_singleton _ _, ?_⟩
    rintro before hbefore last hlast rfl
    rw [List.mem_singleton.mp hlast] at hbefore
    exact hnew hbefore
  · intro field hfield
    rcases List.mem_append.mp hfield with hfield | hfield
    · exact h.2 field hfield
    · rwa [List.mem_singleton.mp hfield]

/-- The names of the first fields are different. -/
theorem NamedFrom.of_append (h : NamedFrom names (front ++ back)) : NamedFrom names front := by
  constructor
  · exact (List.nodup_append.mp (List.map_append ▸ h.1)).1
  · exact fun field hfield => h.2 field (List.mem_append_left back hfield)

/-- The name of the last field is known and not among those of the others. -/
theorem NamedFrom.last (h : NamedFrom names (fields ++ [(name, tree)])) :
    name ∈ names ∧ fields.lookup name = none := by
  refine ⟨h.2 _ (List.mem_append_right fields List.mem_cons_self), ?_⟩
  rw [lookup_eq_none_iff_notMem]
  intro hname
  have hnodup := h.1
  rw [List.map_append, List.nodup_append] at hnodup
  exact hnodup.2.2 name hname name List.mem_cons_self rfl

/-! ## What trees describe -/

/-- Whether a tree describes one value at most. -/
def DescribesOne (describes : α → Tree → Prop) : Prop :=
  ∀ ⦃value value' tree⦄, describes value tree → describes value' tree → value = value'

/-- Null is no count. -/
theorem not_isCount_null : ¬ ∃ count, IsCount count .null := nofun

/-- Null is no row of texts. -/
theorem not_isTexts_null : ¬ ∃ texts, IsTexts texts .null := nofun

/-- A tree is one text only. -/
theorem describesOne_isText : DescribesOne IsText :=
  fun _ _ _ h h' => Tree.string.inj (h.symm.trans h')

/-- A tree is one count only. -/
theorem describesOne_isCount : DescribesOne IsCount := by
  rintro count count' tree ⟨rfl, -⟩ ⟨h, -⟩
  exact congrArg Json.Numeral.whole (Tree.number.inj h)

/-- A tree is one row of texts only. -/
theorem describesOne_isTexts : DescribesOne IsTexts := by
  rintro texts texts' tree rfl h
  exact List.map_injective_iff.mpr (fun _ _ => Tree.string.inj) (Tree.array.inj h)

/-- A tree describes one value that may be absent, when it describes one value and null describes
none. -/
theorem describesOne_nullable (hone : DescribesOne describes)
    (hnull : ¬ ∃ value, describes value .null) : DescribesOne (Nullable describes) := by
  intro value value' tree h h'
  cases h with
  | null =>
    cases h' with
    | null => rfl
    | value hvalue => exact absurd ⟨_, hvalue⟩ hnull
  | value hvalue =>
    cases h' with
    | null => exact absurd ⟨_, hvalue⟩ hnull
    | value hvalue' => rw [hone hvalue hvalue']

/-! ## Slots -/

/-- Whether a slot holds what the field of its name describes. -/
def Slot (fields : List (String × Tree)) (name : String) (describes : α → Tree → Prop)
    (held : Option α) : Prop := Option.Rel describes held (fields.lookup name)

namespace Slot

variable {held : Option α} {value : α}

/-- Without fields every slot is empty. -/
theorem nil : Slot [] name describes none := .none

/-- An empty slot belongs to a name that no field has. -/
theorem lookup_eq_none (h : Slot fields name describes none) : fields.lookup name = none := by
  rw [Slot] at h
  cases hlookup : fields.lookup name with
  | none => rfl
  | some tree =>
    rw [hlookup] at h
    cases h

/-- A field fills its slot. -/
theorem same (hnew : fields.lookup name = none) (hvalue : describes value tree) :
    Slot (fields ++ [(name, tree)]) name describes (some value) := by
  rw [Slot, List.lookup_append, hnew, List.lookup_cons_self]
  exact .some hvalue

/-- A field leaves the other slots alone. -/
theorem different (h : Slot fields name describes held) (hother : name ≠ other) :
    Slot (fields ++ [(other, tree)]) name describes held := by
  have hlookup : List.lookup name [(other, tree)] = none := lookup_cons_of_ne hother
  rwa [Slot, List.lookup_append, hlookup, Option.or_none]

/-- What a slot holds after a field is what the field describes. -/
theorem exists_of_append (h : Slot (fields ++ [(name, tree)]) name describes held)
    (hnew : fields.lookup name = none) : ∃ value, describes value tree := by
  rw [Slot, List.lookup_append, hnew, List.lookup_cons_self, Option.none_or] at h
  cases h with
  | some hvalue => exact ⟨_, hvalue⟩

/-- A slot of a name that no field has is empty. -/
theorem eq_none (h : Slot fields name describes held) (hnew : fields.lookup name = none) :
    held = none := by
  rw [Slot, hnew] at h
  cases h
  rfl

/-- Before the last fields a slot holds what the field of its name describes, if it has come. -/
theorem exists_front (h : Slot (front ++ back) name describes held) :
    ∃ before, Slot front name describes before := by
  rw [Slot, List.lookup_append] at h
  cases hlookup : front.lookup name with
  | none => exact ⟨none, by rw [Slot, hlookup]; exact .none⟩
  | some tree => exact ⟨held, by rw [Slot, hlookup]; rwa [hlookup, Option.some_or] at h⟩

/-- A field gives what its slot holds or, when the slot is empty, the standard value. -/
theorem gives {standard : Option α} (h : Slot fields name describes held)
    (hvalue : held.or standard = some value) : Gives fields name describes standard value := by
  rw [Slot] at h
  rw [Gives]
  cases hlookup : fields.lookup name with
  | none =>
    rw [hlookup] at h
    cases h
    exact hvalue
  | some tree =>
    rw [hlookup] at h
    cases h with
    | some hheld =>
      cases hvalue
      exact hheld

end Slot

/-- A field that gives a value has a slot for it. -/
theorem Gives.exists_slot {standard : Option α} {value : α}
    (h : Gives fields name describes standard value) : ∃ held, Slot fields name describes held := by
  rw [Gives] at h
  cases hlookup : fields.lookup name with
  | none => exact ⟨none, by rw [Slot, hlookup]; exact .none⟩
  | some tree =>
    rw [hlookup] at h
    exact ⟨some value, by rw [Slot, hlookup]; exact .some h⟩

/-- A field without a standard value fills its slot when it gives a value. -/
theorem Slot.exists_eq_some_of_gives {held : Option α} {value : α}
    (hslot : Slot fields name describes held) (h : Gives fields name describes none value) :
    ∃ other, held = some other := by
  rw [Slot] at hslot
  rw [Gives] at h
  cases hlookup : fields.lookup name with
  | none =>
    rw [hlookup] at h
    cases h
  | some tree =>
    rw [hlookup] at hslot
    cases hslot with
    | some _ => exact ⟨_, rfl⟩

/-- A field gives one value only, when a tree describes one only. -/
theorem Gives.unique {standard : Option α} {value value' : α} (hone : DescribesOne describes)
    (h : Gives fields name describes standard value)
    (h' : Gives fields name describes standard value') : value = value' := by
  rw [Gives] at h h'
  cases hlookup : fields.lookup name with
  | none =>
    rw [hlookup] at h h'
    exact Option.some.inj (h.symm.trans h')
  | some tree =>
    rw [hlookup] at h h'
    exact hone h h'

/-! ## Records of fields -/

/-- A field of a record, whose state has a slot for it. -/
structure RecordField (β : Type) where
  /-- The name of the field. -/
  name : String
  /-- The values of the field. -/
  Held : Type
  /-- Which trees describe a value. -/
  describes : Held → Tree → Prop
  /-- The reader of values. -/
  read : Reader Held
  decides : Config.Decides read describes
  /-- What the slot holds. -/
  held : β → Option Held
  /-- The state with another content of the slot. -/
  put : β → Option Held → β

/-- A reader of the fields of a record, each into a slot of its own. -/
structure RecordReader (β : Type) where
  /-- The fields. -/
  fields : List (RecordField β)
  /-- The state without fields. -/
  blank : β
  /-- Reads the field of a name. -/
  read : String → β → Reader β
  nodup_names : (fields.map RecordField.name).Nodup
  held_blank : ∀ field ∈ fields, field.held blank = none
  held_put : ∀ field ∈ fields, ∀ state held, field.held (field.put state held) = held
  held_put_of_ne : ∀ field ∈ fields, ∀ other ∈ fields, other.name ≠ field.name →
    ∀ state held, other.held (field.put state held) = other.held state
  read_eq : ∀ field ∈ fields, ∀ state, read field.name state =
    field.put state <$> Config.once field.name (field.held state) field.read
  fails_read : ∀ name, name ∉ fields.map RecordField.name → ∀ state text,
    Fails (read name state) text

namespace RecordReader

variable (record : RecordReader β)

/-- The names of the fields. -/
def fieldNames : List String := record.fields.map RecordField.name

variable {record} in
/-- Fields of one name are the same. -/
theorem eq_of_name {field other : RecordField β} (hfield : field ∈ record.fields)
    (hother : other ∈ record.fields) (h : field.name = other.name) : field = other :=
  List.inj_on_of_nodup_map record.nodup_names hfield hother h

/-- How a field changes the state: it fills its slot, which has to be empty. -/
def Takes (state : β) (name : String) (tree : Tree) (next : β) : Prop :=
  ∃ field ∈ record.fields, field.name = name ∧ field.held state = none ∧
    ∃ value, field.describes value tree ∧ next = field.put state (some value)

/-- Whether a state holds what fields describe. -/
structure Holds (state : β) (fields : List (String × Tree)) : Prop where
  namedFrom : NamedFrom record.fieldNames fields
  slot : ∀ field ∈ record.fields, Slot fields field.name field.describes (field.held state)

/-- Fields are read as they change the state. -/
theorem decidesField : Config.DecidesField record.read record.Takes where
  reads := by
    rintro state _ _ tree text rest ⟨field, hfield, rfl, hempty, value, hvalue, rfl⟩
      hafter hstops
    obtain ⟨blanks, hblanks, hread⟩ := Config.once_of_describes field.name
      field.decides hvalue hafter hstops
    rw [record.read_eq field hfield, hempty]
    exact ⟨blanks, hblanks, Json.map_of_ok hread⟩
  refuses := by
    intro state name tree text rest hnone hafter hstops
    by_cases hname : name ∈ record.fieldNames
    · obtain ⟨field, hfield, rfl⟩ := List.mem_map.mp hname
      rw [record.read_eq field hfield]
      apply Fails.map
      cases hheld : field.held state with
      | some value => exact Config.fails_once_of_isSome rfl _
      | none =>
        refine Config.fails_once_of_not_describes field.decides ?_ none hafter hstops
        rintro ⟨value, hvalue⟩
        exact hnone ⟨_, field, hfield, rfl, hheld, value, hvalue, rfl⟩
    · exact record.fails_read name hname state _

variable {record} {state next final : β}

/-- The state without fields holds none. -/
theorem holds_blank : record.Holds record.blank [] where
  namedFrom := ⟨List.nodup_nil, nofun⟩
  slot field hfield := record.held_blank field hfield ▸ .nil

/-- A field that changes the state is held by the next one. -/
theorem Holds.step (h : record.Holds state fields) (htakes : record.Takes state name tree next) :
    record.Holds next (fields ++ [(name, tree)]) := by
  obtain ⟨field, hfield, rfl, hempty, value, hvalue, rfl⟩ := htakes
  have hnew := (hempty ▸ h.slot field hfield).lookup_eq_none
  refine ⟨h.namedFrom.append (List.mem_map_of_mem hfield) hnew, fun other hother => ?_⟩
  by_cases hname : other.name = field.name
  · cases eq_of_name hother hfield hname
    rw [record.held_put field hfield]
    exact .same hnew hvalue
  · rw [record.held_put_of_ne field hfield other hother hname]
    exact (h.slot other hother).different hname

/-- A field that a state holds after others changes the state that holds the others. -/
theorem Holds.exists_takes (h : record.Holds state fields)
    (hfinal : record.Holds final (fields ++ [(name, tree)])) :
    ∃ next, record.Takes state name tree next := by
  obtain ⟨hname, hnew⟩ := hfinal.namedFrom.last
  obtain ⟨field, hfield, rfl⟩ := List.mem_map.mp hname
  obtain ⟨value, hvalue⟩ := (hfinal.slot field hfield).exists_of_append hnew
  exact ⟨_, field, hfield, rfl, (h.slot field hfield).eq_none hnew, value, hvalue, rfl⟩

/-- Some state holds the first ones of the fields that a state holds. -/
theorem Holds.exists_front (h : record.Holds final (front ++ back)) :
    ∃ state, record.Holds state front := by
  -- The slots are filled one by one: putting a field leaves those that were filled before.
  have hall (part : List (RecordField β)) (hpart : ∀ field ∈ part, field ∈ record.fields) :
      ∃ state, ∀ field ∈ part, Slot front field.name field.describes (field.held state) := by
    induction part with
    | nil => exact ⟨final, nofun⟩
    | cons field part ih =>
      obtain ⟨hfield, hothers⟩ := List.forall_mem_cons.mp hpart
      obtain ⟨state, hstate⟩ := ih hothers
      obtain ⟨held, hheld⟩ := (h.slot field hfield).exists_front
      refine ⟨field.put state held, List.forall_mem_cons.mpr ⟨?_, fun other hother => ?_⟩⟩
      · rwa [record.held_put field hfield]
      · by_cases hname : other.name = field.name
        · cases eq_of_name (hothers other hother) hfield hname
          rwa [record.held_put field hfield]
        · rw [record.held_put_of_ne field hfield other (hothers other hother) hname]
          exact hstate other hother
  obtain ⟨state, hstate⟩ := hall record.fields fun _ hfield => hfield
  exact ⟨state, h.namedFrom.of_append, hstate⟩

/-- The state to which fields lead holds them. -/
theorem Holds.of_leads (hstate : record.Holds state front)
    (hleads : Config.Leads record.Takes state back final) :
    record.Holds final (front ++ back) := by
  induction hleads generalizing front with
  | nil => rwa [List.append_nil]
  | cons htakes hleads ih =>
    rw [List.append_cons]
    exact ih (hstate.step htakes)

/-- Fields that some state holds lead to a state. -/
theorem Holds.exists_leads (hstate : record.Holds state front)
    (hfinal : record.Holds final (front ++ back)) :
    ∃ last, Config.Leads record.Takes state back last := by
  induction back generalizing state front with
  | nil => exact ⟨state, .nil⟩
  | cons field back ih =>
    rw [List.append_cons] at hfinal
    obtain ⟨between, hbetween⟩ := hfinal.exists_front
    obtain ⟨next, htakes⟩ := hstate.exists_takes hbetween
    obtain ⟨last, hleads⟩ := ih (hstate.step htakes) hfinal
    exact ⟨last, .cons htakes hleads⟩

/-- The state to which all fields of an object lead holds them. -/
theorem holds_of_leads (hleads : Config.Leads record.Takes record.blank fields final) :
    record.Holds final fields := holds_blank.of_leads hleads

/-- Fields of an object that some state holds lead to a state. -/
theorem exists_leads_of_holds (hfinal : record.Holds final fields) :
    ∃ last, Config.Leads record.Takes record.blank fields last :=
  holds_blank.exists_leads hfinal

end RecordReader

end JarCensus
