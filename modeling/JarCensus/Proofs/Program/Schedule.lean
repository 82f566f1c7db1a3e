import JarCensus.Program.Schedule
import JarCensus.Proofs.Config.Session
import JarCensus.Proofs.Listing
import JarCensus.Proofs.Report
import JarCensus.Proofs.Session.OneByOne

/-!
# What a scan report owes to the schedule of the workers

All schedules of a scan lead to the same fault or to reports with the same content. Only
failures that share a path may come in another order, and they do when they differ: each
of them comes first under some schedule.
-/

namespace JarCensus.Program

variable {fs : FileSystem} {pools : PoolBuilder} {config : Config} {archive : String}
  {dependencies : List String} {start : Preparation}

namespace Preparation

/-- The failures of the entries of a scan, in the order of the entries. -/
def failures (start : Preparation) : List Failure :=
  start.entries.filterMap (Session.failure? start.session.gate)

end Preparation

/-- A scan on one thread prepares, scans the entries in their order and reports. -/
theorem scan_eq : scan fs pools config archive dependencies =
    (prepare fs pools config archive dependencies).map fun start =>
      start.report config archive (start.session.scan start.entries).1 := by
  simp only [scan, prepare, bind, Except.bind]
  cases (config.session pools).mapError Fault.start with
  | error fault => rfl
  | ok session =>
    cases (Listing.atPath fs archive true).mapError Fault.listing with
    | error fault => rfl
    | ok own =>
      cases (Dependencies.entries fs dependencies).mapError Fault.dependency <;> rfl

/-- A scan starts exactly when its configuration starts a session, its archive can be listed
and its dependencies can be searched. -/
theorem prepare_eq_ok_iff : prepare fs pools config archive dependencies = .ok start ↔
    ∃ session own others count, config.session pools = .ok session ∧
      Listing.atPath fs archive true = .ok own ∧
      Dependencies.entries fs dependencies = .ok (others, count) ∧
      start = ⟨session, own ++ others, count⟩ := by
  simp only [prepare, bind_eq_ok_iff, mapError_eq_ok_iff, pure, Except.pure, Except.ok.injEq]
  constructor
  · rintro ⟨session, hsession, own, hown, ⟨others, count⟩, hothers, rfl⟩
    exact ⟨session, own, others, count, hsession, hown, hothers, rfl⟩
  · rintro ⟨session, own, others, count, hsession, hown, hothers, rfl⟩
    exact ⟨session, hsession, own, hown, (others, count), hothers, rfl⟩

/-- The session of a prepared scan is running and has no failures yet. -/
theorem unused_of_prepare (hprepare : prepare fs pools config archive dependencies = .ok start) :
    start.session.cancelled = false ∧ start.session.failures = [] := by
  obtain ⟨session, -, -, -, hsession, -, -, rfl⟩ := prepare_eq_ok_iff.mp hprepare
  obtain ⟨-, -, gate, -, -, rfl⟩ := Config.session_eq_ok_iff_gate.mp hsession
  exact ⟨rfl, rfl⟩

/-- That results differ at most in the order of failures that share a path. -/
def AgreeUpToTies : Except Fault CensusReport → Except Fault CensusReport → Prop
  | .error first, .error second => first = second
  | .ok first, .ok second => first.AgreesUpToTies second
  | _, _ => False

/-- That a scan comes to one result under all schedules. -/
def Determined (fs : FileSystem) (pools : PoolBuilder) (config : Config) (archive : String)
    (dependencies : List String) : Prop :=
  ∀ firstMoves firstTree secondMoves secondTree first second,
    ScannedAs fs pools config archive dependencies firstMoves firstTree first →
    ScannedAs fs pools config archive dependencies secondMoves secondTree second → first = second

section Schedules

variable {firstMoves secondMoves : List Move} {firstTree secondTree : MergeTree}
  {first second : Except Fault CensusReport}

/-- Whatever the schedules, what the workers leave behind is reported alike up to ties. -/
theorem agreesUpToTies_report {firstFinal secondFinal : Session}
    (hfirstMoves : .cancel ∉ firstMoves) (hsecondMoves : .cancel ∉ secondMoves)
    (hfirst : start.session.ScannedBy start.entries firstMoves firstTree firstFinal)
    (hsecond : start.session.ScannedBy start.entries secondMoves secondTree secondFinal) :
    (start.report config archive firstFinal).AgreesUpToTies
      (start.report config archive secondFinal) := by
  have hone := (Session.linearized_settled hfirst).agrees hfirstMoves
  have hother := (Session.linearized_settled hsecond).agrees hsecondMoves
  exact CensusReport.agreesUpToTies_ofSession archive start.dependencyJars
    config.decryption.isSome (hone.stats.trans hother.stats.symm)
    (fun category isRoot => (hone.names category isRoot).trans (hother.names category isRoot).symm)
    (hone.failures.trans hother.failures.symm)

/-- All schedules lead to the same result up to ties. -/
theorem agreeUpToTies_of_scannedAs
    (hfirst : ScannedAs fs pools config archive dependencies firstMoves firstTree first)
    (hsecond : ScannedAs fs pools config archive dependencies secondMoves secondTree second) :
    AgreeUpToTies first second := by
  cases hfirst with
  | refused hfault =>
    cases hsecond with
    | refused hfault' => exact Except.error.inj (hfault.symm.trans hfault')
    | scanned hstart => cases hfault.symm.trans hstart
  | scanned hstart hmoves hscan =>
    cases hsecond with
    | refused hfault => cases hstart.symm.trans hfault
    | scanned hstart' hmoves' hscan' =>
      cases hstart.symm.trans hstart'
      exact agreesUpToTies_report hmoves hmoves' hscan hscan'

end Schedules

/-- What the workers of a scan leave behind are the failures of its entries. -/
theorem failures_perm_of_scannedBy {moves : List Move} {tree : MergeTree} {final : Session}
    (hprepare : prepare fs pools config archive dependencies = .ok start) (hmoves : .cancel ∉ moves)
    (hscan : start.session.ScannedBy start.entries moves tree final) :
    final.failures.Perm start.failures := by
  obtain ⟨hrunning, hbefore⟩ := unused_of_prepare hprepare
  have hfailures := ((Session.linearized_settled hscan).agrees hmoves).failures
  rw [Session.scan_of_running _ _ hrunning] at hfailures
  simpa [Session.addStats, Session.absorb, hbefore, Preparation.failures] using hfailures

/-- A scan that starts ends with a report on a session with the failures of its entries. -/
theorem ScannedAs.exists_final {moves : List Move} {tree : MergeTree}
    {result : Except Fault CensusReport}
    (hscanned : ScannedAs fs pools config archive dependencies moves tree result)
    (hprepare : prepare fs pools config archive dependencies = .ok start) :
    ∃ final : Session, final.failures.Perm start.failures ∧
      result = .ok (start.report config archive final) := by
  cases hscanned with
  | refused hfault => cases hprepare.symm.trans hfault
  | scanned hstart hmoves hscan =>
    cases hprepare.symm.trans hstart
    exact ⟨_, failures_perm_of_scannedBy hprepare hmoves hscan, rfl⟩

/-- A scan on one thread comes to what workers come to that take turns. -/
theorem exists_scannedAs_scan (fs : FileSystem) (pools : PoolBuilder) (config : Config)
    (archive : String) (dependencies : List String) :
    ∃ moves tree, ScannedAs fs pools config archive dependencies moves tree
      (scan fs pools config archive dependencies) := by
  rw [scan_eq]
  cases hprepare : prepare fs pools config archive dependencies with
  | error fault => exact ⟨[], .zero, .refused hprepare⟩
  | ok start =>
    have hrunning := (unused_of_prepare hprepare).1
    obtain ⟨tree, hscan⟩ := Session.exists_scannedBy_scan hrunning start.entries
    exact ⟨_, tree, .scanned hprepare (Race.cancel_notMem_oneByOne _) hscan⟩

/-- Under some schedule a failure comes before all others of its path. -/
theorem exists_scannedAs_first (hprepare : prepare fs pools config archive dependencies = .ok start)
    {failure : Failure} (hfailure : failure ∈ start.failures) :
    ∃ moves tree report, ScannedAs fs pools config archive dependencies moves tree (.ok report) ∧
      (report.failures.filter (·.path = failure.path)).head? = some failure := by
  obtain ⟨hrunning, hbefore⟩ := unused_of_prepare hprepare
  obtain ⟨entry, hentry, hfailed⟩ := List.mem_filterMap.mp hfailure
  obtain ⟨index, hindex, rfl⟩ := List.mem_iff_getElem.mp hentry
  -- The worker of the entry takes the first turn.
  let order := index :: (List.range start.entries.length).erase index
  have horder : order.Perm (List.range start.entries.length) :=
    (List.perm_cons_erase (List.mem_range.mpr hindex)).symm
  obtain ⟨tree, final, hscan⟩ := Session.exists_scannedBy_oneByOne hrunning horder
  refine ⟨_, tree, _, .scanned hprepare (Race.cancel_notMem_oneByOne _) hscan, ?_⟩
  have hfinal := (Session.linearized_settled hscan).failures
  rw [Race.settled_oneByOne] at hfinal
  have hpick : Race.pick start.entries order = start.entries[index] ::
      Race.pick start.entries ((List.range start.entries.length).erase index) := by
    simp [order, Race.pick, hindex]
  rw [hbefore, List.nil_append, hpick, List.filterMap_cons_some hfailed] at hfinal
  simp only [Preparation.report, CensusReport.ofSession, Failure.filter_mergeSort, hfinal]
  simp

/-- A prepared scan comes to one result under all schedules exactly when no two different
failures of its entries share a path. -/
theorem determined_iff (hprepare : prepare fs pools config archive dependencies = .ok start) :
    Determined fs pools config archive dependencies ↔ Failure.PathsDistinguish start.failures := by
  constructor
  · intro hdetermined x hx y hy hpath
    obtain ⟨_, _, first, hfirst, hhead⟩ := exists_scannedAs_first hprepare hx
    obtain ⟨_, _, second, hsecond, hhead'⟩ := exists_scannedAs_first hprepare hy
    cases hdetermined _ _ _ _ _ _ hfirst hsecond
    rw [hpath, hhead'] at hhead
    exact (Option.some.inj hhead).symm
  · intro hpaths _ _ _ _ first second hfirst hsecond
    have hagree := agreeUpToTies_of_scannedAs hfirst hsecond
    obtain ⟨final, hfinal, rfl⟩ := hfirst.exists_final hprepare
    obtain ⟨final', hfinal', rfl⟩ := hsecond.exists_final hprepare
    have hsorted := (hpaths.perm hfinal.symm).mergeSort_eq (hfinal.trans hfinal'.symm)
    rw [hagree.eq_of_failures hsorted]

/-- What a scan owes to the schedule of its workers. -/
structure DeterminedUpToTies (fs : FileSystem) (pools : PoolBuilder) (config : Config)
    (archive : String) (dependencies : List String) : Prop where
  /-- Some schedule leads to the result of a scan on one thread. -/
  possible : ∃ moves tree, ScannedAs fs pools config archive dependencies moves tree
    (scan fs pools config archive dependencies)
  /-- All schedules lead to the same result, but for the order of failures that share a path. -/
  agree : ∀ firstMoves firstTree secondMoves secondTree first second,
    ScannedAs fs pools config archive dependencies firstMoves firstTree first →
    ScannedAs fs pools config archive dependencies secondMoves secondTree second →
    AgreeUpToTies first second
  /-- A scan that starts leads to one result exactly when no two different failures share a
  path. -/
  determined : ∀ start, prepare fs pools config archive dependencies = .ok start →
    (Determined fs pools config archive dependencies ↔ Failure.PathsDistinguish start.failures)

/-- The result of a scan depends on the schedule in the order of failures that share a path, and
in nothing else. -/
theorem scan_determined_up_to_ties (fs : FileSystem) (pools : PoolBuilder) (config : Config)
    (archive : String) (dependencies : List String) :
    DeterminedUpToTies fs pools config archive dependencies where
  possible := exists_scannedAs_scan fs pools config archive dependencies
  agree := fun _ _ _ _ _ _ => agreeUpToTies_of_scannedAs
  determined := fun _ => determined_iff

/-- A jar with an empty class file. -/
def hollowJar : Bytes := Zip.Packing.archive [.stored "A.class" []]

/-- A folder with two such jars. -/
def twinJars : FileSystem :=
  ⟨.folder [("a.jar", .file hollowJar), ("z.jar", .file hollowJar)], []⟩

/-- The entry of such a jar. -/
def hollowEntry (jar : String) (isRoot : Bool) : Entry :=
  ⟨"A.class", isRoot, some jar, .content []⟩

/-- Such a jar is listed as its one entry. -/
theorem inJar_twinJars :
    Listing.inJar twinJars "z.jar" true = .ok [hollowEntry "z.jar" true] ∧
      Listing.inJar twinJars "a.jar" false = .ok [hollowEntry "a.jar" false] := by
  have hmain : twinJars.read "z.jar" = .ok hollowJar :=
    FileSystem.read_of_isName (by constructor <;> decide) rfl
  have hother : twinJars.read "a.jar" = .ok hollowJar :=
    FileSystem.read_of_isName (by constructor <;> decide) rfl
  rw [Listing.inJar_of_read hmain, Listing.inJar_of_read hother]
  exact ⟨by decide +kernel, by decide +kernel⟩

/-- A scan of one of the jars with the other one as a dependency has one entry from each. -/
theorem prepare_twinJars : prepare twinJars .unlimited .standard "z.jar" ["a.jar"] =
    .ok ⟨.start .disabled Config.standard.criteria,
      [hollowEntry "z.jar" true, hollowEntry "a.jar" false], 1⟩ := by
  have hfolder : twinJars.isFolder "z.jar" = false :=
    FileSystem.isFolder_of_isName (by constructor <;> decide) rfl
  have hfile : twinJars.isFile "a.jar" = true :=
    FileSystem.isFile_of_isName (by constructor <;> decide) rfl
  have hown : Listing.atPath twinJars "z.jar" true = .ok [hollowEntry "z.jar" true] := by
    rw [Listing.atPath, hfolder]
    exact inJar_twinJars.1
  have hjars : Dependencies.jars twinJars "a.jar" = .ok ["a.jar"] := by
    rw [Dependencies.jars, hfile]
    rfl
  have hlistable : Dependencies.listable twinJars ["a.jar"] =
      ([hollowEntry "a.jar" false], 1) := by
    simp only [Dependencies.listable, inJar_twinJars.2]
    rfl
  have hothers : Dependencies.entries twinJars ["a.jar"] =
      .ok ([hollowEntry "a.jar" false], 1) := by
    rw [Dependencies.entries, hjars]
    simp only [bind, Except.bind, hlistable]
    rfl
  have hsession : Config.standard.session .unlimited =
      .ok (.start .disabled Config.standard.criteria) :=
    Config.session_of_decryption_eq_none rfl (Config.staffed_unlimited _)
  exact prepare_eq_ok_iff.mpr ⟨_, _, _, _, hsession, hown, hothers, rfl⟩

/-- The failure of the entry of such a jar. -/
def hollowFailure (jar : String) (isRoot : Bool) : Failure :=
  ⟨"A.class", some jar, isRoot, ⟨"A.class", .malformed (.truncated 0 4)⟩⟩

/-- The two entries fail under the same path, so the order of their failures in the report
depends on which of two workers comes first. -/
theorem not_determined_twinJars :
    ¬ Determined twinJars .unlimited .standard "z.jar" ["a.jar"] := by
  have hfailures : Preparation.failures
      ⟨.start .disabled Config.standard.criteria,
        [hollowEntry "z.jar" true, hollowEntry "a.jar" false], 1⟩ =
      [hollowFailure "z.jar" true, hollowFailure "a.jar" false] := by
    decide +kernel
  rw [determined_iff prepare_twinJars, hfailures]
  intro hpaths
  have hsame := hpaths (hollowFailure "z.jar" true) List.mem_cons_self
    (hollowFailure "a.jar" false) (List.mem_cons_of_mem _ List.mem_cons_self) rfl
  exact absurd hsame (by decide)

end JarCensus.Program
