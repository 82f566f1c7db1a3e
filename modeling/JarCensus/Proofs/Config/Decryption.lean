import JarCensus.Proofs.Config.Records

/-!
# Reading decryption settings

The reader of decryption settings takes exactly the objects and rows that describe settings.
-/

namespace JarCensus

open Json (Reader Tree Spells Fails fails_bind)
open Config (Decides Leads Remains itemOr endArray readString decides_readString)

variable {α : Type} {text rest : List Char} {given : List (String × Tree)}

namespace Config.DecryptionFields

/-- The marker of protected paths. -/
def protectedMarkerField : RecordField DecryptionFields :=
  ⟨"protected_path_marker", String, IsText, readString, decides_readString, (·.protectedMarker),
    fun state held => { state with protectedMarker := held }⟩

/-- The marker of exempted paths. -/
def syntheticMarkerField : RecordField DecryptionFields :=
  ⟨"synthetic_marker", String, IsText, readString, decides_readString, (·.syntheticMarker),
    fun state held => { state with syntheticMarker := held }⟩

/-- The key. -/
def keyField : RecordField DecryptionFields :=
  ⟨"decryption_key", String, IsText, readString, decides_readString, (·.key),
    fun state held => { state with key := held }⟩

/-- The seed. -/
def seedField : RecordField DecryptionFields :=
  ⟨"key_derivation_seed", String, IsText, readString, decides_readString, (·.seed),
    fun state held => { state with seed := held }⟩

/-- The fields of the decryption settings. -/
def fields : List (RecordField DecryptionFields) :=
  [protectedMarkerField, syntheticMarkerField, keyField, seedField]

/-- What holds of each field holds of all. -/
theorem forall_mem_fields_iff {holds : RecordField DecryptionFields → Prop} :
    (∀ field ∈ fields, holds field) ↔ holds protectedMarkerField ∧ holds syntheticMarkerField ∧
      holds keyField ∧ holds seedField := by
  simp [fields]

/-- The reader of the fields of the decryption settings. -/
def reader : RecordReader DecryptionFields where
  fields := fields
  blank := blank
  read := read
  nodup_names := by decide
  held_blank := forall_mem_fields_iff.mpr ⟨rfl, rfl, rfl, rfl⟩
  held_put := forall_mem_fields_iff.mpr
    ⟨fun _ _ => rfl, fun _ _ => rfl, fun _ _ => rfl, fun _ _ => rfl⟩
  held_put_of_ne := by
    refine forall_mem_fields_iff.mpr ⟨?_, ?_, ?_, ?_⟩ <;>
      refine forall_mem_fields_iff.mpr ⟨?_, ?_, ?_, ?_⟩ <;>
      first
        | exact fun hne => absurd rfl hne
        | exact fun _ _ _ => rfl
  read_eq := forall_mem_fields_iff.mpr
    ⟨fun _ => rfl, fun _ => rfl, fun _ => rfl, fun _ => rfl⟩
  fails_read := by
    intro name hname state text
    unfold read
    split
    · exact absurd (by decide) hname
    · exact absurd (by decide) hname
    · exact absurd (by decide) hname
    · exact absurd (by decide) hname
    · exact fails_fieldFault _ _

variable {state : DecryptionFields} {config : GateConfig} {key : String}

/-- The settings that are made of what was read. -/
def made (state : DecryptionFields) (key : String) : GateConfig :=
  ⟨state.protectedMarker.getD GateConfig.standardProtectedMarker,
    state.syntheticMarker.getD GateConfig.standardSyntheticMarker, key, state.seed.getD ""⟩

/-- A value that may be missing is its standard value when it is. -/
theorem or_some_eq {held : Option α} {standard : α} :
    held.or (some standard) = some (held.getD standard) := by
  cases held <;> rfl

/-- What was read of fields with a key gives the settings that are made of it. -/
theorem givenBy_of_holds (h : reader.Holds state given)
    (hkey : state.key = some key) : (state.made key).GivenBy given := by
  obtain ⟨hnames, hslots⟩ := h
  obtain ⟨hprotected, hsynthetic, hkeySlot, hseed⟩ := forall_mem_fields_iff.mp hslots
  exact ⟨hnames, hprotected.gives or_some_eq, hsynthetic.gives or_some_eq,
    hkeySlot.gives (Option.or_none.trans hkey), hseed.gives or_some_eq⟩

end Config.DecryptionFields

namespace GateConfig

variable {config config' : GateConfig}

/-- Fields give one settings only. -/
theorem GivenBy.unique (h : config.GivenBy given) (h' : config'.GivenBy given) :
    config = config' := by
  obtain ⟨protectedMarker, syntheticMarker, key, seed⟩ := config
  obtain ⟨protectedMarker', syntheticMarker', key', seed'⟩ := config'
  have hprotected := h.protectedMarker.unique describesOne_isText h'.protectedMarker
  have hsynthetic := h.syntheticMarker.unique describesOne_isText h'.syntheticMarker
  have hkey := h.key.unique describesOne_isText h'.key
  have hseed := h.seed.unique describesOne_isText h'.seed
  dsimp only at hprotected hsynthetic hkey hseed
  rw [hprotected, hsynthetic, hkey, hseed]

/-- Fields that give settings can be read, and the key is among them. -/
theorem GivenBy.exists_leads (h : config.GivenBy given) :
    ∃ final, Leads Config.DecryptionFields.reader.Takes .blank given final ∧
      final.key = some config.key ∧ final.made config.key = config := by
  obtain ⟨protectedMarker, hprotected⟩ := h.protectedMarker.exists_slot
  obtain ⟨syntheticMarker, hsynthetic⟩ := h.syntheticMarker.exists_slot
  obtain ⟨key, hkey⟩ := h.key.exists_slot
  obtain ⟨seed, hseed⟩ := h.seed.exists_slot
  have hholds : Config.DecryptionFields.reader.Holds
      ⟨protectedMarker, syntheticMarker, key, seed⟩ given :=
    ⟨h.namedFrom, Config.DecryptionFields.forall_mem_fields_iff.mpr
      ⟨hprotected, hsynthetic, hkey, hseed⟩⟩
  obtain ⟨final, hleads⟩ := RecordReader.exists_leads_of_holds hholds
  have hfinal := RecordReader.holds_of_leads hleads
  have hfilled := (Config.DecryptionFields.forall_mem_fields_iff.mp hfinal.slot).2.2.1
  obtain ⟨other, hother⟩ := hfilled.exists_eq_some_of_gives h.key
  -- What is made of the final state is given by the same fields, so it is the same settings.
  have hmade := (Config.DecryptionFields.givenBy_of_holds hfinal hother).unique h
  have hsame : other = config.key := congrArg GateConfig.key hmade
  exact ⟨final, hleads, hsame ▸ hother, hsame ▸ hmade⟩

/-- Null describes no settings. -/
theorem not_describes_null : ¬ ∃ config : GateConfig, config.Describes .null := nofun

end GateConfig

namespace Config

/-- The settings of a row are read from its items. -/
theorem ofItems_of_row {config : GateConfig} {seed : List String}
    (hseed : seed = [config.seed] ∨ (seed = [] ∧ config.seed = ""))
    (h : Json.SpellsRow Spells
      (([config.protectedMarker, config.syntheticMarker, config.key] ++ seed).map Tree.string)
      text) (rest : List Char) :
    ∃ left, Remains Spells true [] left ∧
      DecryptionFields.ofItems (text ++ ']' :: rest) = .ok (config, left ++ ']' :: rest) := by
  obtain ⟨afterProtected, hafter, hprotected⟩ :=
    itemOr_of_remains decides_readString rfl (remains_of_row h) rest
  obtain ⟨afterSynthetic, hafter, hsynthetic⟩ :=
    itemOr_of_remains decides_readString rfl hafter rest
  obtain ⟨afterKey, hafter, hkey⟩ := itemOr_of_remains decides_readString rfl hafter rest
  rw [DecryptionFields.ofItems, bind_of_ok hprotected, Option.isNone_some, bind_of_ok hsynthetic,
    Option.isNone_some, bind_of_ok hkey]
  dsimp only
  rcases hseed with rfl | ⟨rfl, hempty⟩
  · obtain ⟨afterSeed, hafter, hread⟩ := itemOr_of_remains decides_readString rfl hafter rest
    obtain hblanks | _ := hafter
    refine ⟨afterSeed, .nil hblanks, ?_⟩
    rw [bind_of_ok hread]
    rfl
  · refine ⟨[], .nil Json.blank_nil, ?_⟩
    rw [bind_of_ok (itemOr_of_remains_nil readString hafter rest), Option.getD_none, ← hempty]
    rfl

/-- What is read of a row is the text that is next, if there is one. -/
theorem of_itemOr {items : List Tree} {isFirst : Bool} {held : Option String}
    {after : List Char} (h : Remains Spells isFirst items text)
    (hread : itemOr isFirst readString (text ++ ']' :: rest) = .ok (held, after)) :
    ∃ others left, items = held.toList.map Tree.string ++ others ∧
      (held = none → others = []) ∧ Remains Spells held.isNone others left ∧
      after = left ++ ']' :: rest := by
  cases items with
  | nil =>
    cases (itemOr_of_remains_nil readString h rest).symm.trans hread
    exact ⟨[], [], rfl, fun _ => rfl, .nil Json.blank_nil, rfl⟩
  | cons tree items =>
    by_cases htext : ∃ value, IsText value tree
    · obtain ⟨value, rfl⟩ := htext
      obtain ⟨left, hleft, htaken⟩ := itemOr_of_remains decides_readString rfl h rest
      cases htaken.symm.trans hread
      exact ⟨items, left, rfl, nofun, hleft, rfl⟩
    · obtain ⟨fault, hfault⟩ := fails_itemOr_of_remains decides_readString htext h rest
      cases hfault.symm.trans hread

/-- Settings that are read of a row are those of its first texts. -/
theorem of_ofItems {items : List Tree} {config : GateConfig} {after : List Char}
    (h : Json.SpellsRow Spells items text)
    (hread : DecryptionFields.ofItems (text ++ ']' :: rest) = .ok (config, after)) :
    ∃ seed others left,
      items = ([config.protectedMarker, config.syntheticMarker, config.key] ++
        seed.toList).map Tree.string ++ others ∧ config.seed = seed.getD "" ∧
      (seed = none → others = []) ∧ Remains Spells seed.isNone others left ∧
      after = left ++ ']' :: rest := by
  simp only [DecryptionFields.ofItems, bind_apply_eq_ok_iff] at hread
  obtain ⟨protectedMarker, _, hprotected, syntheticMarker, _, hsynthetic, key, _, hkey, hread⟩ :=
    hread
  obtain ⟨items, left, rfl, hnoProtected, hafter, rfl⟩ := of_itemOr (remains_of_row h) hprotected
  obtain ⟨items, left, rfl, hnoSynthetic, hafter', rfl⟩ := of_itemOr hafter hsynthetic
  obtain ⟨items, left, rfl, -, hafterKey, rfl⟩ := of_itemOr hafter' hkey
  cases key with
  | none => cases hread
  | some key =>
    obtain ⟨seed, _, hseed, hread⟩ := bind_apply_eq_ok_iff.mp hread
    cases hread
    obtain ⟨others, left, rfl, hnoSeed, hleft, rfl⟩ := of_itemOr hafterKey hseed
    cases syntheticMarker with
    | none => cases hnoSynthetic rfl
    | some syntheticMarker =>
      cases protectedMarker with
      | none => cases hnoProtected rfl
      | some protectedMarker =>
        exact ⟨seed, others, left, by simp, rfl, hnoSeed, hleft, rfl⟩

/-- The items of a row that describes no settings are not read as settings. -/
theorem fails_ofItems {items : List Tree}
    (hother : ¬ ∃ config : GateConfig, config.Describes (.array items))
    (h : Json.SpellsRow Spells items text) (rest : List Char) :
    Fails (do
      let record ← DecryptionFields.ofItems
      endArray
      return record : Reader GateConfig) (text ++ ']' :: rest) := by
  apply fails_bind
  intro config after hread
  obtain ⟨seed, others, left, rfl, hseed, hnone, hleft, rfl⟩ := of_ofItems h hread
  -- The reader stops after the seed. A row that goes on there misses its bracket, and one that
  -- does not go on describes what was read.
  cases others with
  | nil =>
    refine absurd ⟨config, ?_⟩ hother
    rw [List.append_nil]
    refine .row ?_
    cases seed with
    | none => exact .inr ⟨rfl, hseed⟩
    | some seed => exact .inl (congrArg (fun seed => [seed]) hseed.symm)
  | cons tree others =>
    cases seed with
    | none => cases hnone rfl
    | some seed => exact (fails_endArray hleft rest).bind

/-- Objects and rows that describe decryption settings are taken for them, and nothing else is. -/
theorem decides_readDecryption : Decides readDecryption GateConfig.Describes where
  reads := by
    intro config tree hdescribes
    refine reads_of_spellsBare (skips_space_bind _) fun tokens follow htokens _ => ?_
    cases hdescribes with
    | @object fields hgiven =>
      obtain ⟨final, hleads, hkey, hmade⟩ := hgiven.exists_leads
      refine readRecord_of_leads DecryptionFields.reader.decidesField hleads (fun text => ?_)
        htokens follow
      rw [DecryptionFields.record, hkey]
      exact congrArg (fun record => Except.ok (record, text)) hmade
    | row hseed =>
      obtain _ | _ | _ | _ | _ | @⟨_, inner, hitems⟩ := htokens
      rw [List.cons_append, List.append_assoc, List.singleton_append, readDecryption,
        readRecord_bracket]
      obtain ⟨left, hleft, hread⟩ := ofItems_of_row hseed hitems follow
      rw [bind_of_ok hread, bind_of_ok (endArray_of_remains hleft follow)]
      rfl
  refuses := by
    intro tree hother
    by_cases hobject : ∃ fields, tree = .object fields
    · obtain ⟨fields, rfl⟩ := hobject
      refine refuses_of_spellsBare (skips_space_bind _) fun tokens follow htokens _ => ?_
      refine fails_readRecord_of_leads DecryptionFields.reader.decidesField
        (fun final hleads text => ?_) htokens follow
      have hfinal := RecordReader.holds_of_leads hleads
      rw [DecryptionFields.record]
      cases hkey : final.key with
      | none => exact fails_fieldFault _ _
      | some key => exact absurd ⟨_, .object (DecryptionFields.givenBy_of_holds hfinal hkey)⟩ hother
    · by_cases harray : ∃ items, tree = .array items
      · obtain ⟨items, rfl⟩ := harray
        refine refuses_of_spellsBare (skips_space_bind _) fun tokens follow htokens _ => ?_
        obtain _ | _ | _ | _ | _ | @⟨_, inner, hitems⟩ := htokens
        rw [List.cons_append, List.append_assoc, List.singleton_append, Fails, readDecryption,
          readRecord_bracket]
        exact fails_ofItems hother hitems follow
      · exact refuses_readRecord harray hobject

end Config

end JarCensus
