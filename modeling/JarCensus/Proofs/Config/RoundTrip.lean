import JarCensus.Proofs.Config.Document

/-!
# Configuration files are read back and read strictly

What is written for a configuration is read as the configuration, and so is every other object
whose fields give it, in any order and spelled in any way. An object with a single flaw is refused.
-/

namespace JarCensus

open Json (Tree Value Spells)

variable {α : Type} {name : String} {names : List String} {value : α} {standard : Option α}
  {fields others inner spoiled : List (String × Tree)} {describes : α → Tree → Prop}

/-! ## The order of fields -/

/-- The order of names does not matter. -/
theorem NamedFrom.perm (h : NamedFrom names fields) (hperm : fields.Perm others) :
    NamedFrom names others :=
  ⟨(hperm.map Prod.fst).nodup_iff.mp h.1, fun field hfield => h.2 field (hperm.mem_iff.mpr hfield)⟩

/-- What fields give does not depend on their order. -/
theorem Gives.perm (h : Gives fields name describes standard value)
    (hnames : NamedFrom names fields) (hperm : fields.Perm others) :
    Gives others name describes standard value := by
  rwa [Gives, ← lookup_eq_of_perm hperm hnames.1]

/-- The field of a name gives a value that its tree describes. -/
theorem Gives.of_mem (h : Gives fields name describes standard value)
    (hnames : NamedFrom names fields) {tree : Tree} (hfield : (name, tree) ∈ fields) :
    describes value tree := by
  rwa [Gives, (lookup_eq_some_iff_mem hnames.1).mpr hfield] at h

/-- Fields in another order give the same configuration. -/
theorem Config.GivenBy.perm {config : Config} (h : config.GivenBy fields)
    (hperm : fields.Perm others) : config.GivenBy others where
  namedFrom := h.namedFrom.perm hperm
  decryption := h.decryption.perm h.namedFrom hperm
  threads := h.threads.perm h.namedFrom hperm
  modelAnnotations := h.modelAnnotations.perm h.namedFrom hperm
  converterAnnotations := h.converterAnnotations.perm h.namedFrom hperm

/-! ## What is written -/

/-- Fields that have all names in their order are named from them. -/
theorem namedFrom_of_names (hnames : fields.map Prod.fst = names) (hdistinct : names.Nodup) :
    NamedFrom names fields := by
  subst hnames
  exact ⟨hdistinct, fun _ hfield => List.mem_map_of_mem hfield⟩

/-- The trees of texts are the texts. -/
theorem itemTrees_strings (texts : List String) :
    Json.itemTrees (texts.map Value.string) = texts.map Tree.string := by
  induction texts with
  | nil => rfl
  | cons text rest ih => exact congrArg (Tree.string text :: ·) ih

/-- The tree of a row of texts is that row. -/
theorem isTexts_ofStrings (texts : List String) : IsTexts texts (Value.ofStrings texts).tree :=
  congrArg Tree.array (itemTrees_strings texts)

/-- The tree of a value that may be absent describes it. -/
theorem nullable_tree {value : Option α} {written : α → Value}
    (h : ∀ present ∈ value, describes present (written present).tree) :
    Nullable describes value ((value.map written).getD .null).tree := by
  cases value with
  | none => exact .null
  | some present => exact .value (h present rfl)

/-- What is written for decryption settings describes them. -/
theorem GateConfig.describes_toJson (config : GateConfig) :
    config.Describes config.toJson.tree :=
  .object ⟨namedFrom_of_names rfl (by decide), rfl, rfl, rfl, rfl⟩

/-- What is written for a configuration is an object whose fields give it. -/
theorem Config.exists_givenBy_toJson (config : Config)
    (hthreads : ∀ count ∈ config.threads, count < Bytes.end64) :
    ∃ fields, config.toJson.tree = .object fields ∧ config.GivenBy fields := by
  refine ⟨_, rfl, namedFrom_of_names rfl (by decide), ?_, ?_, ?_, ?_⟩
  · exact nullable_tree fun settings _ => settings.describes_toJson
  · exact nullable_tree fun count hcount => ⟨rfl, hthreads count hcount⟩
  · exact nullable_tree fun texts _ => isTexts_ofStrings texts
  · exact nullable_tree fun texts _ => isTexts_ofStrings texts

/-- What is written for a configuration is read as it. -/
theorem Config.parse_write (config : Config) (layout : Json.Layout)
    (hthreads : ∀ count ∈ config.threads, count < Bytes.end64) :
    Config.parse (Json.write layout 0 config.toJson) = .ok config := by
  obtain ⟨fields, htree, hgiven⟩ := config.exists_givenBy_toJson hthreads
  have hspells := Json.spells_write layout 0 config.toJson
  rw [htree] at hspells
  exact parse_of_givenBy hgiven hspells

/-! ## Single flaws -/

/-- One field too many has an unknown name or one that comes twice. -/
theorem OneTooMany.not_namedFrom (h : OneTooMany names inner spoiled) :
    ¬ NamedFrom names spoiled := by
  obtain ⟨name, tree, hperm, hname⟩ := h
  intro hnames
  have hmoved := hnames.perm hperm
  rcases hname with hunknown | hrepeated
  · exact hunknown (hmoved.2 _ List.mem_cons_self)
  · exact (List.nodup_cons.mp hmoved.1).1 hrepeated

/-- The object of decryption settings that a configuration has gives its settings. -/
theorem Config.GivenBy.exists_inner {config : Config} (h : config.GivenBy fields)
    (hfield : ("decryption", Tree.object inner) ∈ fields) :
    ∃ settings : GateConfig, settings.GivenBy inner := by
  have hdescribes := h.decryption.of_mem h.namedFrom hfield
  generalize config.decryption = decryption at hdescribes
  obtain _ | hsettings := hdescribes
  obtain hgiven | _ := hsettings
  exact ⟨_, hgiven⟩

/-- Fields with a single flaw give no configuration. -/
theorem Config.SpoiledBy.not_givenBy {config : Config} (h : config.SpoiledBy fields) :
    ¬ ∃ other : Config, other.GivenBy fields := by
  rintro ⟨other, hother⟩
  cases h with
  | field hgiven hmany => exact hmany.not_namedFrom hother.namedFrom
  | decryptionField hgiven hmany hperm =>
    obtain ⟨settings, hsettings⟩ :=
      hother.exists_inner (hperm.mem_iff.mpr List.mem_cons_self)
    exact hmany.not_namedFrom hsettings.namedFrom
  | @key inner spoiled others tree hgiven hinner hperm =>
    obtain ⟨settings, hsettings⟩ := hgiven.exists_inner List.mem_cons_self
    obtain ⟨settings', hsettings'⟩ :=
      hother.exists_inner (hperm.mem_iff.mpr List.mem_cons_self)
    -- The key came once in the settings, so it is not among the fields that are left.
    have hkeyless : spoiled.lookup "decryption_key" = none :=
      lookup_eq_none_iff_notMem.mpr
        (List.nodup_cons.mp (hsettings.namedFrom.perm hinner).1).1
    have hkey := hsettings'.key
    rw [Gives, hkeyless] at hkey
    cases hkey

/-! ## Files -/

/-- A file of encoded text is read as the text. -/
theorem Config.ofBytes_encode (path : String) (text : List Char) :
    Config.ofBytes path (Text.Utf8.encode text) =
      (Config.parse text).mapError (.malformed path text) := by
  rw [Config.ofBytes, (Text.Utf8.decode?_eq_some_iff).mpr rfl]

namespace Config

/-- Configuration documents are read back as they are written, in any order of fields and in any
spelling, and are refused for a single flaw. -/
structure ReadStrictly : Prop where
  /-- What is written for a configuration, in one line or indented, is read as it. -/
  written : ∀ (config : Config) (layout : Json.Layout),
    (∀ count ∈ config.threads, count < Bytes.end64) →
    parse (Json.write layout 0 config.toJson) = .ok config
  /-- An object is read as a configuration exactly when its fields give the configuration. -/
  object : ∀ fields text, Spells (.object fields) text →
    ∀ config, parse text = .ok config ↔ config.GivenBy fields
  /-- Fields give the same configuration in any order. -/
  order : ∀ fields others, fields.Perm others →
    ∀ config : Config, config.GivenBy fields ↔ config.GivenBy others
  /-- An object is refused when it has one field too many, in itself or among the decryption
  settings, or when the key is missing among these. -/
  spoiled : ∀ (config : Config) fields text, config.SpoiledBy fields →
    Spells (.object fields) text → ∃ fault, parse text = .error fault
  /-- A file is read as the text that its bytes encode. -/
  file : ∀ path text,
    ofBytes path (Text.Utf8.encode text) = (parse text).mapError (.malformed path text)

/-- The format of configuration files is read back and read strictly. -/
theorem read_strictly : ReadStrictly where
  written := parse_write
  object _ _ hspells _ := parse_iff_givenBy hspells
  order _ _ hperm _ := ⟨fun h => h.perm hperm, fun h => h.perm hperm.symm⟩
  spoiled _ _ _ hspoiled hspells := fails_parse hspoiled.not_givenBy hspells
  file := ofBytes_encode

/-- A number of workers is read back, and refused when it is given twice. -/
theorem read_strictly_threads :
    parse (Json.write .compact 0 (Config.mk none (some 3) none none).toJson) =
      .ok ⟨none, some 3, none, none⟩ ∧
    ∃ fault, parse (Json.write .compact 0 (.object [("threads", .number 3),
      ("threads", .number 3)])) = .error fault := by
  constructor
  · exact read_strictly.written ⟨none, some 3, none, none⟩ .compact (by decide)
  · have hgiven : GivenBy ⟨none, some 3, none, none⟩ [("threads", .number (.ofNat 3))] :=
      ⟨⟨by decide, by decide⟩, rfl, .value ⟨rfl, by decide⟩, rfl, rfl⟩
    have hspells := Json.spells_write .compact 0
      (.object [("threads", .number 3), ("threads", .number 3)])
    refine read_strictly.spoiled _ _ _ (.field hgiven ⟨"threads", _, .refl _, .inr ?_⟩) hspells
    exact List.mem_singleton_self "threads"

/-- Fields come in another order, a name and a key are escaped, and the rest is left out. -/
example : (parse ("\x7b\"threads\": 3, \"decryption\": \x7b \"decryption\\u005fkey\" : " ++
    "\"21\\/cf\"\x7d\x7d").toList).toOption =
      some ⟨some (.ofKey "21/cf"), some 3, none, none⟩ := by decide +kernel

end Config

end JarCensus
