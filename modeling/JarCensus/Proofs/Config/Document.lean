import JarCensus.Proofs.Config.Decryption

/-!
# Reading configuration documents

An object is read as a configuration exactly when its fields give the configuration, and as none
when they give none.
-/

namespace JarCensus

open Json (Reader Tree Spells Blank Fails)
open Json.Token (space)
open Config (Decides Leads decides_readOptional decides_readDecryption decides_readCount
  decides_readStrings)

variable {α : Type} {text : List Char} {given : List (String × Tree)}

/-! ## Fields -/

/-- A tree describes one set of decryption settings only. -/
theorem describesOne_describes : DescribesOne GateConfig.Describes := by
  rintro config config' tree (hgiven | hseed) h'
  · obtain hgiven' | _ := h'
    exact hgiven.unique hgiven'
  · rename_i seed
    generalize htree : Tree.ofStrings
      ([config.protectedMarker, config.syntheticMarker, config.key] ++ seed) = tree at h'
    obtain _ | @⟨seed', hseed'⟩ := h'
    · cases htree
    · have htexts := describesOne_isTexts htree.symm rfl
      obtain ⟨protectedMarker, syntheticMarker, key, own⟩ := config
      obtain ⟨protectedMarker', syntheticMarker', key', own'⟩ := config'
      simp only [List.cons_append, List.nil_append, List.cons.injEq] at htexts
      obtain ⟨rfl, rfl, rfl, rfl⟩ := htexts
      rcases hseed with rfl | ⟨rfl, rfl⟩ <;> rcases hseed' with h | ⟨h, rfl⟩ <;> cases h <;> rfl

namespace Config.Fields

/-- Decryption settings that may be absent are taken for them, and nothing else is. -/
theorem decides_decryption :
    Decides (readOptional readDecryption) (Nullable GateConfig.Describes) :=
  decides_readOptional decides_readDecryption GateConfig.not_describes_null

/-- A count that may be absent is taken for it, and nothing else is. -/
theorem decides_threads : Decides (readOptional readCount) (Nullable IsCount) :=
  decides_readOptional decides_readCount not_isCount_null

/-- Rows of texts that may be absent are taken for them, and nothing else is. -/
theorem decides_annotations : Decides (readOptional readStrings) (Nullable IsTexts) :=
  decides_readOptional decides_readStrings not_isTexts_null

/-- The decryption settings. -/
def decryptionField : RecordField Fields :=
  ⟨"decryption", Option GateConfig, Nullable GateConfig.Describes, readOptional readDecryption,
    decides_decryption, (·.decryption), fun state held => { state with decryption := held }⟩

/-- The number of workers. -/
def threadsField : RecordField Fields :=
  ⟨"threads", Option Nat, Nullable IsCount, readOptional readCount, decides_threads, (·.threads),
    fun state held => { state with threads := held }⟩

/-- The annotations of models. -/
def modelField : RecordField Fields :=
  ⟨"model_annotations", Option (List String), Nullable IsTexts, readOptional readStrings,
    decides_annotations, (·.modelAnnotations),
    fun state held => { state with modelAnnotations := held }⟩

/-- The annotations of converters. -/
def converterField : RecordField Fields :=
  ⟨"converter_annotations", Option (List String), Nullable IsTexts, readOptional readStrings,
    decides_annotations, (·.converterAnnotations),
    fun state held => { state with converterAnnotations := held }⟩

/-- The fields of a configuration. -/
def fields : List (RecordField Fields) :=
  [decryptionField, threadsField, modelField, converterField]

/-- What holds of each field holds of all. -/
theorem forall_mem_fields_iff {holds : RecordField Fields → Prop} :
    (∀ field ∈ fields, holds field) ↔ holds decryptionField ∧ holds threadsField ∧
      holds modelField ∧ holds converterField := by
  simp [fields]

/-- The reader of the fields of a configuration. -/
def reader : RecordReader Fields where
  fields := fields
  blank := blank
  read := read
  nodup_names := by decide
  held_blank := forall_mem_fields_iff.mpr ⟨rfl, rfl, rfl, rfl⟩
  held_put := forall_mem_fields_iff.mpr
    ⟨fun _ _ => rfl, fun _ _ => rfl, fun _ _ => rfl, fun _ _ => rfl⟩
  held_put_of_ne := by
    refine forall_mem_fields_iff.mpr ⟨?_, ?_, ?_, ?_⟩ <;>
      refine forall_mem_fields_iff.mpr ⟨?_, ?_, ?_, ?_⟩ <;>
      first
        | exact fun hne => absurd rfl hne
        | exact fun _ _ _ => rfl
  read_eq := forall_mem_fields_iff.mpr
    ⟨fun _ => rfl, fun _ => rfl, fun _ => rfl, fun _ => rfl⟩
  fails_read := by
    intro name hname state text
    unfold read
    split
    · exact absurd (by decide) hname
    · exact absurd (by decide) hname
    · exact absurd (by decide) hname
    · exact absurd (by decide) hname
    · exact fails_fieldFault _ _

/-- A value that may be absent is when its field is left out. -/
theorem or_some_none_eq {held : Option (Option α)} : held.or (some none) = some held.join := by
  cases held <;> rfl

/-- What was read of fields gives the configuration that is made of it. -/
theorem givenBy_of_holds {state : Fields} (h : reader.Holds state given) :
    state.record.GivenBy given := by
  obtain ⟨hnames, hslots⟩ := h
  obtain ⟨hdecryption, hthreads, hmodel, hconverter⟩ := forall_mem_fields_iff.mp hslots
  exact ⟨hnames, hdecryption.gives or_some_none_eq, hthreads.gives or_some_none_eq,
    hmodel.gives or_some_none_eq, hconverter.gives or_some_none_eq⟩

end Config.Fields

namespace Config

variable {config config' : Config}

/-- Fields give one configuration only. -/
theorem GivenBy.unique (h : config.GivenBy given) (h' : config'.GivenBy given) :
    config = config' := by
  obtain ⟨decryption, threads, model, converter⟩ := config
  obtain ⟨decryption', threads', model', converter'⟩ := config'
  have hdecryption := h.decryption.unique
    (describesOne_nullable describesOne_describes GateConfig.not_describes_null) h'.decryption
  have hthreads := h.threads.unique
    (describesOne_nullable describesOne_isCount not_isCount_null) h'.threads
  have hmodel := h.modelAnnotations.unique
    (describesOne_nullable describesOne_isTexts not_isTexts_null) h'.modelAnnotations
  have hconverter := h.converterAnnotations.unique
    (describesOne_nullable describesOne_isTexts not_isTexts_null) h'.converterAnnotations
  dsimp only at hdecryption hthreads hmodel hconverter
  rw [hdecryption, hthreads, hmodel, hconverter]

/-- Fields that give a configuration can be read. -/
theorem GivenBy.exists_leads (h : config.GivenBy given) :
    ∃ final, Leads Fields.reader.Takes .blank given final ∧ final.record = config := by
  obtain ⟨decryption, hdecryption⟩ := h.decryption.exists_slot
  obtain ⟨threads, hthreads⟩ := h.threads.exists_slot
  obtain ⟨model, hmodel⟩ := h.modelAnnotations.exists_slot
  obtain ⟨converter, hconverter⟩ := h.converterAnnotations.exists_slot
  have hholds : Fields.reader.Holds ⟨decryption, threads, model, converter⟩ given :=
    ⟨h.namedFrom, Fields.forall_mem_fields_iff.mpr ⟨hdecryption, hthreads, hmodel, hconverter⟩⟩
  obtain ⟨final, hleads⟩ := RecordReader.exists_leads_of_holds hholds
  have hfinal := RecordReader.holds_of_leads hleads
  exact ⟨final, hleads, (Fields.givenBy_of_holds hfinal).unique h⟩

/-- The reader of the record of a whole document. -/
def readOuter : Reader Config :=
  readRecord "a configuration" Fields.blank Fields.read (fun fields => return fields.record)
    Fields.ofItems

/-- A document is read when only blanks follow its record. -/
theorem parse_of_readOuter {before after : List Char} (hbefore : Blank before)
    (h : readOuter text = .ok (config, after)) (hafter : Blank after) :
    parse (before ++ text) = .ok config := by
  have hskips : Skips readOuter := skips_space_bind _
  have hrecord : readOuter (before ++ text) = .ok (config, after) := by rw [hskips _ _ hbefore, h]
  have hspace : space after = .ok ((), []) := by
    have hdrop := Json.Token.dropSpace_append hafter []
    rw [List.append_nil] at hdrop
    exact congrArg (fun left => Except.ok ((), left)) hdrop
  change (readDocument (before ++ text)).map (·.1) = .ok config
  have hdocument : readDocument (before ++ text) = .ok (config, []) := by
    refine (bind_of_ok hrecord).trans ((bind_of_ok hspace).trans ?_)
    rfl
  rw [hdocument]
  rfl

/-- A document is not read when its record is not. -/
theorem fails_parse_of_readOuter {before : List Char} (hbefore : Blank before)
    (h : Fails readOuter text) : ∃ fault, parse (before ++ text) = .error fault := by
  have hskips : Skips readOuter := skips_space_bind _
  have hrecord : Fails readOuter (before ++ text) := by rwa [Fails, hskips _ _ hbefore]
  obtain ⟨fault, hdocument⟩ : Fails readDocument (before ++ text) := hrecord.bind
  change ∃ fault, (readDocument (before ++ text)).map (·.1) = .error fault
  rw [hdocument]
  exact ⟨fault, rfl⟩

/-- An object is read as the configuration that its fields give. -/
theorem parse_of_givenBy (hgiven : config.GivenBy given) (h : Spells (.object given) text) :
    parse text = .ok config := by
  obtain ⟨hbefore, htokens, hafter⟩ := h
  obtain ⟨final, hleads, rfl⟩ := hgiven.exists_leads
  rw [List.append_assoc]
  exact parse_of_readOuter hbefore
    (readRecord_of_leads Fields.reader.decidesField hleads (fun _ => rfl) htokens _) hafter

/-- An object is not read when its fields give no configuration. -/
theorem fails_parse (hother : ¬ ∃ config : Config, config.GivenBy given)
    (h : Spells (.object given) text) : ∃ fault, parse text = .error fault := by
  obtain ⟨hbefore, htokens, hafter⟩ := h
  rw [List.append_assoc]
  refine fails_parse_of_readOuter hbefore
    (fails_readRecord_of_leads Fields.reader.decidesField (fun final hleads _ => ?_) htokens _)
  exact absurd ⟨_, Fields.givenBy_of_holds (RecordReader.holds_of_leads hleads)⟩ hother

/-- An object is read as a configuration exactly when its fields give the configuration. -/
theorem parse_iff_givenBy (h : Spells (.object given) text) :
    parse text = .ok config ↔ config.GivenBy given := by
  constructor
  · intro hread
    by_cases hgiven : ∃ config : Config, config.GivenBy given
    · obtain ⟨other, hother⟩ := hgiven
      cases (parse_of_givenBy hother h).symm.trans hread
      exact hother
    · obtain ⟨fault, hfault⟩ := fails_parse hgiven h
      cases hfault.symm.trans hread
  · exact fun hgiven => parse_of_givenBy hgiven h

end Config

end JarCensus
