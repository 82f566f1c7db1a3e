import JarCensus.Proofs.Decryption.Gate
import JarCensus.Session.Basic
import Mathlib.Data.List.Forall2

/-!
# Spellings of a path

A path may be spelled with slashes of either kind and with `/` and `./` pieces in front.
All its spellings have one common spelling, and only they have it, so that no rule can be
evaded or triggered by the way in which a path is written. A path below a folder keeps the
common spelling of the path as its end.
-/

namespace JarCensus.Decryption

/-- Whether a character is a slash of either kind. -/
def IsSlash (c : Char) : Prop := c = '/' ∨ c = '\\'

instance (c : Char) : Decidable (IsSlash c) :=
  inferInstanceAs (Decidable (c = '/' ∨ c = '\\'))

/-- Whether a text is a sequence of pieces that may stand in front of a path: slashes, and dots
with a slash. -/
inductive IsLead : List Char → Prop where
  /-- No piece. -/
  | nil : IsLead []
  /-- A slash in front of other pieces. -/
  | slash {c : Char} {lead : List Char} : IsSlash c → IsLead lead → IsLead (c :: lead)
  /-- A dot and a slash in front of other pieces. -/
  | dot {c : Char} {lead : List Char} : IsSlash c → IsLead lead → IsLead ('.' :: c :: lead)

/-- Whether two texts differ at most in the kinds of their slashes. -/
def SameButSlashes : List Char → List Char → Prop :=
  List.Forall₂ fun c d => c = d ∨ (IsSlash c ∧ IsSlash d)

/-- Whether the second path is another spelling of the first: slashes of another kind, after any
pieces in front. -/
def Respells (path other : String) : Prop :=
  ∃ lead tail, IsLead lead ∧ SameButSlashes path.toList tail ∧ other.toList = lead ++ tail

/-! ## Kinds of slashes -/

/-- Forward slashes are told apart from nothing but slashes. -/
theorem forwardSlash_eq_iff (c d : Char) :
    (if c == '\\' then '/' else c) = (if d == '\\' then '/' else d) ↔
      c = d ∨ (IsSlash c ∧ IsSlash d) := by
  simp only [beq_iff_eq, IsSlash]
  split_ifs <;> grind

/-- Two texts differ at most in the kinds of their slashes exactly when they are the same with
forward slashes. -/
theorem sameButSlashes_iff {path other : List Char} :
    SameButSlashes path other ↔ forwardSlashes path = forwardSlashes other := by
  rw [← List.forall₂_eq_eq_eq, forwardSlashes, forwardSlashes, List.forall₂_map_left_iff,
    List.forall₂_map_right_iff]
  simp only [forwardSlash_eq_iff]
  rfl

/-- No backslash is left among forward slashes. -/
theorem backslash_notMem_forwardSlashes (path : List Char) : '\\' ∉ forwardSlashes path := by
  intro hmem
  obtain ⟨c, -, hc⟩ := List.mem_map.mp hmem
  by_cases hback : c = '\\' <;> simp [hback] at hc

/-- Text without backslashes has forward slashes already. -/
theorem forwardSlashes_eq_self {path : List Char} (hback : '\\' ∉ path) :
    forwardSlashes path = path := by
  refine (List.map_congr_left fun c hc => ?_).trans (List.map_id path)
  have hne : c ≠ '\\' := fun h => hback (h ▸ hc)
  simp [hne]

/-- Turning slashes works piece by piece. -/
theorem forwardSlashes_append (path other : List Char) :
    forwardSlashes (path ++ other) = forwardSlashes path ++ forwardSlashes other :=
  List.map_append ..

/-- A slash of either kind is turned into a forward slash. -/
theorem forwardSlashes_cons_of_isSlash {c : Char} (hslash : IsSlash c) (path : List Char) :
    forwardSlashes (c :: path) = '/' :: forwardSlashes path := by
  rcases hslash with rfl | rfl <;> rfl

/-! ## Pieces in front -/

/-- Pieces in front are such with slashes of any kind. -/
theorem IsLead.of_sameButSlashes {lead other : List Char} (hlead : IsLead lead)
    (hsame : SameButSlashes lead other) : IsLead other := by
  have hslashed {c d : Char} (hc : IsSlash c) (hcd : c = d ∨ (IsSlash c ∧ IsSlash d)) :
      IsSlash d := hcd.elim (fun h => h ▸ hc) And.right
  induction hlead generalizing other with
  | nil =>
    cases hsame
    exact .nil
  | slash hc _ ih =>
    cases hsame with
    | cons hcd hrest => exact .slash (hslashed hc hcd) (ih hrest)
  | dot hc _ ih =>
    cases hsame with
    | cons hdot hrest =>
      cases hrest with
      | cons hcd hrest =>
        obtain rfl | ⟨hnone, -⟩ := hdot
        · exact .dot (hslashed hc hcd) (ih hrest)
        · exact absurd hnone (by decide)

/-- Pieces in front are dropped. -/
theorem dropLeading_append_of_isLead {lead : List Char} (hlead : IsLead lead)
    (path : List Char) : dropLeading (forwardSlashes lead ++ path) = dropLeading path := by
  induction hlead with
  | nil => rfl
  | slash hslash _ ih =>
    rw [forwardSlashes_cons_of_isSlash hslash]
    exact (dropLeading.eq_2 _).trans ih
  | @dot c lead hslash _ ih =>
    have hdot : forwardSlashes ('.' :: c :: lead) = '.' :: '/' :: forwardSlashes lead :=
      congrArg ('.' :: ·) (forwardSlashes_cons_of_isSlash hslash lead)
    rw [hdot]
    exact (dropLeading.eq_1 _).trans ih

/-- What is dropped are pieces in front. -/
theorem exists_lead (path : List Char) :
    ∃ lead, IsLead lead ∧ path = lead ++ dropLeading path := by
  induction path using dropLeading.induct with
  | case1 rest ih =>
    obtain ⟨lead, hlead, hrest⟩ := ih
    exact ⟨'.' :: '/' :: lead, .dot (.inl rfl) hlead, congrArg (fun r => '.' :: '/' :: r) hrest⟩
  | case2 rest ih =>
    obtain ⟨lead, hlead, hrest⟩ := ih
    exact ⟨'/' :: lead, .slash (.inl rfl) hlead, congrArg ('/' :: ·) hrest⟩
  | case3 path hdot hslash => exact ⟨[], .nil, (dropLeading.eq_3 path hdot hslash).symm⟩

/-- No slash is left in front. -/
theorem not_slash_prefix_dropLeading (path : List Char) : ¬ ['/'] <+: dropLeading path := by
  induction path using dropLeading.induct with
  | case1 rest ih => exact ih
  | case2 rest ih => exact ih
  | case3 path hdot hslash =>
    rw [dropLeading.eq_3 path hdot hslash]
    rintro ⟨rest, rfl⟩
    exact hslash rest rfl

/-- No dot with a slash is left in front. -/
theorem not_dot_prefix_dropLeading (path : List Char) : ¬ ['.', '/'] <+: dropLeading path := by
  induction path using dropLeading.induct with
  | case1 rest ih => exact ih
  | case2 rest ih => exact ih
  | case3 path hdot hslash =>
    rw [dropLeading.eq_3 path hdot hslash]
    rintro ⟨rest, rfl⟩
    exact hdot rest rfl

/-- Dropping the pieces in front leaves none to drop. -/
theorem dropLeading_dropLeading (path : List Char) :
    dropLeading (dropLeading path) = dropLeading path := by
  induction path using dropLeading.induct with
  | case1 rest ih => exact ih
  | case2 rest ih => exact ih
  | case3 path hdot hslash =>
    rw [dropLeading.eq_3 path hdot hslash, dropLeading.eq_3 path hdot hslash]

/-- What is left is an end of the path. -/
theorem dropLeading_suffix (path : List Char) : dropLeading path <:+ path := by
  obtain ⟨lead, -, hpath⟩ := exists_lead path
  exact ⟨lead, hpath.symm⟩

/-- What is left of a path is an end of what is left of it below a folder: pieces in front end
with a slash, so none of them reaches across the slash after the folder. -/
theorem dropLeading_suffix_below (folder path : List Char) :
    dropLeading path <:+ dropLeading (folder ++ '/' :: path) := by
  induction folder using dropLeading.induct with
  | case1 rest ih => exact ih
  | case2 rest ih => exact ih
  | case3 folder hdot hslash =>
    by_cases hend : folder = [] ∨ folder = ['.']
    · rcases hend with rfl | rfl <;> exact List.suffix_rfl
    · have hkept : dropLeading (folder ++ '/' :: path) = folder ++ '/' :: path := by
        refine dropLeading.eq_3 _ (fun more hmore => ?_) (fun more hmore => ?_)
        · rcases List.append_eq_cons_iff.mp hmore with ⟨hnil, -⟩ | ⟨rest, hfolder, hrest⟩
          · exact hend (.inl hnil)
          · rcases List.append_eq_cons_iff.mp hrest.symm with ⟨hnil, -⟩ | ⟨more, hslashed, -⟩
            · exact hend (.inr (hnil ▸ hfolder))
            · exact hdot more (hslashed ▸ hfolder)
        · rcases List.append_eq_cons_iff.mp hmore with ⟨hnil, -⟩ | ⟨rest, hfolder, -⟩
          · exact hend (.inl hnil)
          · exact hslash rest hfolder
      rw [hkept]
      exact (dropLeading_suffix path).trans
        ((List.suffix_cons '/' path).trans (List.suffix_append _ _))

/-! ## Common spellings -/

/-- The common spelling in characters. -/
theorem toList_commonSpelling (path : String) :
    (commonSpelling path).toList = commonChars path.toList :=
  String.toList_ofList

/-- Common spellings are the same exactly when their characters are. -/
theorem commonSpelling_eq_iff {path other : String} :
    commonSpelling other = commonSpelling path ↔
      commonChars other.toList = commonChars path.toList := by
  rw [← String.toList_inj, toList_commonSpelling, toList_commonSpelling]

/-- No backslash is left in a common spelling. -/
theorem backslash_notMem_commonChars (path : List Char) : '\\' ∉ commonChars path :=
  fun hmem => backslash_notMem_forwardSlashes path ((dropLeading_suffix _).subset hmem)

/-- A common spelling is its own. -/
theorem commonChars_commonChars (path : List Char) :
    commonChars (commonChars path) = commonChars path := by
  rw [commonChars, forwardSlashes_eq_self (backslash_notMem_commonChars path)]
  exact dropLeading_dropLeading _

/-- The common spelling of a path is an end of its common spelling below a folder. -/
theorem commonSpelling_suffix_below (folder path : String) :
    (commonSpelling path).toList <:+ (commonSpelling (folder ++ "/" ++ path)).toList := by
  have hbelow : (folder ++ "/" ++ path).toList = folder.toList ++ '/' :: path.toList := by simp
  rw [toList_commonSpelling, toList_commonSpelling, hbelow, commonChars, commonChars,
    forwardSlashes_append]
  exact dropLeading_suffix_below (forwardSlashes folder.toList) (forwardSlashes path.toList)

/-- Neither the kinds of slashes nor pieces in front change the common spelling. -/
theorem commonChars_of_respelled {path lead tail : List Char} (hlead : IsLead lead)
    (htail : SameButSlashes path tail) : commonChars (lead ++ tail) = commonChars path := by
  rw [commonChars, forwardSlashes_append, dropLeading_append_of_isLead hlead,
    ← sameButSlashes_iff.mp htail, commonChars]

/-- A path is a spelling of its common spelling. -/
theorem respells_commonSpelling (path : String) : Respells (commonSpelling path) path := by
  obtain ⟨lead, hlead, hpath⟩ := exists_lead (forwardSlashes path.toList)
  obtain ⟨front, back, hfrontBack, rfl, hback⟩ := List.map_eq_append_iff.mp hpath
  have hforward : forwardSlashes (forwardSlashes front) = forwardSlashes front :=
    forwardSlashes_eq_self (backslash_notMem_forwardSlashes front)
  refine ⟨front, back, hlead.of_sameButSlashes (sameButSlashes_iff.mpr hforward), ?_, hfrontBack⟩
  rw [sameButSlashes_iff, toList_commonSpelling,
    forwardSlashes_eq_self (backslash_notMem_commonChars path.toList)]
  exact hback.symm

/-- Two paths have one common spelling exactly when they are spellings of one path. -/
theorem commonSpelling_eq_iff_respells {path other : String} :
    commonSpelling other = commonSpelling path ↔
      ∃ core, Respells core path ∧ Respells core other := by
  constructor
  · intro hsame
    exact ⟨commonSpelling path, respells_commonSpelling path,
      hsame ▸ respells_commonSpelling other⟩
  · rintro ⟨core, ⟨lead, tail, hlead, htail, hpath⟩, front, back, hfront, hback, hother⟩
    rw [commonSpelling_eq_iff, hpath, hother, commonChars_of_respelled hlead htail,
      commonChars_of_respelled hfront hback]

/-! ## What depends on the common spelling alone -/

namespace MarkerRule

variable {rule : MarkerRule} {path other : String}

/-- A rule protects a path exactly when its marker stands in the common spelling and the marker
of exempted paths, if it has one, does not. -/
theorem protects_iff :
    rule.protects path = true ↔
      rule.protectedMarker.toList <:+: commonChars path.toList ∧
        (rule.syntheticMarker = "" ∨
          ¬ rule.syntheticMarker.toList <:+: commonChars path.toList) := by
  simp [protects, ← occursIn_iff]

/-- A rule does not tell paths of one common spelling apart. -/
theorem protects_eq_of_commonSpelling (hsame : commonSpelling other = commonSpelling path) :
    rule.protects other = rule.protects path := by
  rw [protects, commonSpelling_eq_iff.mp hsame, protects]

/-- A rule that protects a path protects it below every folder that does not bring in the marker
of exempted paths. -/
theorem protects_below (folder : String) (hprotects : rule.protects path = true)
    (hexempt : rule.syntheticMarker = "" ∨
      ¬ rule.syntheticMarker.toList <:+: (commonSpelling (folder ++ "/" ++ path)).toList) :
    rule.protects (folder ++ "/" ++ path) = true := by
  have hbelow := (commonSpelling_suffix_below folder path).isInfix
  rw [toList_commonSpelling, toList_commonSpelling] at hbelow
  rw [toList_commonSpelling] at hexempt
  exact protects_iff.mpr ⟨(protects_iff.mp hprotects).1.trans hbelow, hexempt⟩

end MarkerRule

namespace Gate

variable {path other : String}

/-- A gate does not tell paths of one common spelling apart. -/
theorem isProtected_eq_of_commonSpelling (gate : Gate)
    (hsame : commonSpelling other = commonSpelling path) :
    gate.isProtected other = gate.isProtected path := by
  simp only [isProtected, MarkerRule.protects_eq_of_commonSpelling hsame]

/-- Bytes come out of a gate in the same way on all paths of one common spelling. -/
theorem apply_eq_of_commonSpelling (gate : Gate)
    (hsame : commonSpelling other = commonSpelling path) (bytes : Bytes) :
    gate.apply other bytes = gate.apply path bytes := by
  rw [apply_eq, apply_eq, isProtected_eq_of_commonSpelling gate hsame]

end Gate

end JarCensus.Decryption

namespace JarCensus

open Decryption

/-- The pipeline says the same of the bytes of all paths of one common spelling, and at most puts
a failure down to another path. -/
theorem Session.examine_eq_of_commonSpelling {path other : String} (gate : Gate)
    (criteria : Criteria) (hsame : commonSpelling other = commonSpelling path) (raw : Bytes) :
    examine gate criteria other raw =
      (examine gate criteria path raw).mapError ({ · with path := other }) := by
  rw [examine, examine, Gate.apply_eq_of_commonSpelling gate hsame]
  cases gate.apply path raw with
  | error cause => rfl
  | ok passed =>
    cases hparse : ClassFile.parse passed.bytes with
    | ok summary => simp only [hparse]; rfl
    | error fault =>
      simp only [hparse]
      split <;> rfl

/-- What the spelling of a path does and does not decide. -/
structure SpellingImmaterial (path : String) : Prop where
  /-- The common spelling has no backslash. -/
  slashed : '\\' ∉ (commonSpelling path).toList
  /-- The common spelling does not start with a slash. -/
  noSlash : ¬ "/".toList <+: (commonSpelling path).toList
  /-- The common spelling does not start with a dot and a slash. -/
  noDot : ¬ "./".toList <+: (commonSpelling path).toList
  /-- The common spelling is what is left of the path with forward slashes after pieces in
  front. -/
  left : ∃ lead, IsLead lead ∧ '\\' ∉ lead ∧
    forwardSlashes path.toList = lead ++ (commonSpelling path).toList
  /-- The common spelling is its own. -/
  settled : commonSpelling (commonSpelling path) = commonSpelling path
  /-- Every spelling of the path has its common spelling. -/
  respelled : ∀ {other}, Respells path other → commonSpelling other = commonSpelling path
  /-- The paths with its common spelling are those that are spellings of one path with it. -/
  shared : ∀ other, commonSpelling other = commonSpelling path ↔
    ∃ core, Respells core path ∧ Respells core other
  /-- No rule tells the path from another spelling of it. -/
  protects : ∀ {other}, Respells path other → ∀ rule : MarkerRule,
    rule.protects other = rule.protects path
  /-- No gate tells the path from another spelling of it. -/
  isProtected : ∀ {other}, Respells path other → ∀ gate : Gate,
    gate.isProtected other = gate.isProtected path
  /-- All bytes pass every gate in the same way under another spelling. -/
  apply : ∀ {other}, Respells path other → ∀ (gate : Gate) bytes,
    gate.apply other bytes = gate.apply path bytes
  /-- What is said of bytes under another spelling differs at most in the path that a failure
  names. -/
  examine : ∀ {other}, Respells path other → ∀ gate criteria raw,
    Session.examine gate criteria other raw =
      (Session.examine gate criteria path raw).mapError ({ · with path := other })
  /-- The common spelling of the path is an end of its common spelling below a folder. -/
  below : ∀ folder,
    (commonSpelling path).toList <:+ (commonSpelling (folder ++ "/" ++ path)).toList
  /-- A rule that protects the path protects it below every folder, unless the marker of exempted
  paths occurs there. -/
  protectsBelow : ∀ (rule : MarkerRule) folder, rule.protects path = true →
    (rule.syntheticMarker = "" ∨
      ¬ rule.syntheticMarker.toList <:+: (commonSpelling (folder ++ "/" ++ path)).toList) →
    rule.protects (folder ++ "/" ++ path) = true

/-- No spelling of a path makes a difference to what is protected: all spellings have one common
spelling, on which alone rules, gates and findings depend, and it stays the end of the path below
every folder. -/
theorem spelling_immaterial (path : String) : SpellingImmaterial path := by
  have hrespelled {other : String} (hother : Respells path other) :
      commonSpelling other = commonSpelling path := by
    obtain ⟨lead, tail, hlead, htail, hother⟩ := hother
    rw [commonSpelling_eq_iff, hother, commonChars_of_respelled hlead htail]
  constructor
  case slashed =>
    rw [toList_commonSpelling]
    exact backslash_notMem_commonChars path.toList
  case noSlash =>
    rw [toList_commonSpelling]
    exact not_slash_prefix_dropLeading _
  case noDot =>
    rw [toList_commonSpelling]
    exact not_dot_prefix_dropLeading _
  case left =>
    obtain ⟨lead, hlead, hpath⟩ := exists_lead (forwardSlashes path.toList)
    have hforward : '\\' ∉ lead := fun hmem =>
      backslash_notMem_forwardSlashes path.toList (hpath ▸ List.mem_append_left _ hmem)
    exact ⟨lead, hlead, hforward, toList_commonSpelling path ▸ hpath⟩
  case settled =>
    rw [commonSpelling_eq_iff, toList_commonSpelling, commonChars_commonChars]
  case respelled => exact hrespelled
  case shared => exact fun other => commonSpelling_eq_iff_respells
  case protects =>
    exact fun hother rule => MarkerRule.protects_eq_of_commonSpelling (hrespelled hother)
  case isProtected =>
    exact fun hother gate => gate.isProtected_eq_of_commonSpelling (hrespelled hother)
  case apply =>
    exact fun hother gate bytes => gate.apply_eq_of_commonSpelling (hrespelled hother) bytes
  case examine =>
    exact fun hother gate criteria raw =>
      Session.examine_eq_of_commonSpelling gate criteria (hrespelled hother) raw
  case below => exact fun folder => commonSpelling_suffix_below folder path
  case protectsBelow =>
    exact fun rule folder hprotects hexempt => MarkerRule.protects_below folder hprotects hexempt

/-- A dot within a path is no piece in front. -/
example : commonSpelling ".\\//com\\./A.class" = "com/./A.class" := by decide

end JarCensus
