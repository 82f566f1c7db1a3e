import JarCensus.Proofs.Session.Race

/-!
# Every order of the entries has a schedule

Workers that take turns, each checking and settling its entry before the next one starts,
can settle the entries in any order. The order of the entries themselves gives what a scan
on one thread gives.
-/

namespace JarCensus

/-- Every row of counts is added up by some tree. -/
theorem MergeTree.exists_leaves_eq (counts : List Stats) :
    ∃ tree : MergeTree, tree.leaves = counts := by
  induction counts with
  | nil => exact ⟨.zero, rfl⟩
  | cons first rest ih =>
    obtain ⟨tree, hleaves⟩ := ih
    exact ⟨.node (.leaf first) tree, by rw [leaves, hleaves]; rfl⟩

namespace Race

/-- The moves of workers that take turns in the given order of their entries. -/
def oneByOne (order : List Nat) : List Move :=
  order.flatMap fun index => [.check index, .settle index]

/-- Workers that take turns settle their entries in the order of their turns. -/
theorem settled_oneByOne (order : List Nat) : settled (oneByOne order) = order := by
  induction order with
  | nil => rfl
  | cons index rest ih =>
    have hrest : settled (oneByOne (index :: rest)) = index :: settled (oneByOne rest) := rfl
    rw [hrest, ih]

/-- Workers that take turns do not cancel the session. -/
theorem cancel_notMem_oneByOne (order : List Nat) : .cancel ∉ oneByOne order := by
  simp [oneByOne]

variable {session : Session} {entries : List Entry} {race : Race} {order : List Nat}

/-- In a running session a worker whose check is still to come can check and settle its entry.
Then its work is over, the session still runs, and the other workers are where they were. -/
theorem exists_turn {index : Nat} (hrunning : race.session.cancelled = false)
    (hindex : index < entries.length) (hwaiting : race.phases[index]? = some .waiting) :
    ∃ (next : Race) (counts : Stats),
      (∀ rest, race.steps? entries (.check index :: .settle index :: rest) =
        next.steps? entries rest) ∧
      next.session.cancelled = false ∧ next.phases = race.phases.set index (.over counts) := by
  obtain ⟨hlength, -⟩ := List.getElem?_eq_some_iff.mp hwaiting
  let admitted : Race := { race with phases := race.phases.set index .admitted }
  let settled := race.session.settle entries[index]
  have hcheck : race.step? entries (.check index) = some admitted := by
    simp only [step?, if_pos hwaiting, hrunning]
    rfl
  have hsettle : admitted.step? entries (.settle index) =
      some ⟨settled.1, race.phases.set index (.over settled.2)⟩ := by
    simp [step?, hindex, admitted, hlength, settled]
  refine ⟨⟨settled.1, race.phases.set index (.over settled.2)⟩, settled.2, ?_, ?_, rfl⟩
  · intro rest
    simp only [steps?, hcheck, hsettle, Option.bind_eq_bind, Option.bind_some]
  · simp only [settled, Session.settle_eq]
    exact hrunning

/-- In a running session workers whose checks are still to come can take turns in any order, and
then their work is over. -/
theorem exists_steps_oneByOne (hrunning : race.session.cancelled = false) (hnodup : order.Nodup)
    (hbounded : ∀ index ∈ order, index < entries.length)
    (hwaiting : ∀ index ∈ order, race.phases[index]? = some .waiting) :
    ∃ final, race.steps? entries (oneByOne order) = some final ∧
      (∀ index ∈ order, ∃ counts, final.phases[index]? = some (.over counts)) ∧
      ∀ index, index ∉ order → final.phases[index]? = race.phases[index]? := by
  induction order generalizing race with
  | nil => exact ⟨race, rfl, by simp, fun _ _ => rfl⟩
  | cons index rest ih =>
    obtain ⟨hfresh, hrest⟩ := List.nodup_cons.mp hnodup
    have hhead := hwaiting index List.mem_cons_self
    obtain ⟨next, counts, hturn, hstill, hphases⟩ :=
      exists_turn hrunning (hbounded index List.mem_cons_self) hhead
    have hothers : ∀ other, other ≠ index → next.phases[other]? = race.phases[other]? := by
      intro other hother
      rw [hphases, List.getElem?_set_ne hother.symm]
    obtain ⟨final, hsteps, hover, hsame⟩ := ih hstill hrest
      (fun other hother => hbounded other (List.mem_cons_of_mem _ hother))
      (fun other hother => (hothers other fun heq => hfresh (heq ▸ hother)).trans
        (hwaiting other (List.mem_cons_of_mem _ hother)))
    refine ⟨final, (hturn (oneByOne rest)).trans hsteps, ?_, ?_⟩
    · intro other hother
      rcases List.mem_cons.mp hother with rfl | hmem
      · obtain ⟨hlength, -⟩ := List.getElem?_eq_some_iff.mp hhead
        exact ⟨counts, by rw [hsame other hfresh, hphases, List.getElem?_set_self hlength]⟩
      · exact hover other hmem
    · intro other hother
      obtain ⟨hne, hmem⟩ := List.ne_and_not_mem_of_not_mem_cons hother
      rw [hsame other hmem, hothers other hne]

/-- When the work on all entries is over, there are counts. -/
theorem exists_counts?_of_over
    (hover : ∀ index < race.phases.length, ∃ counts, race.phases[index]? = some (.over counts)) :
    ∃ leaves, race.counts? = some leaves := by
  obtain ⟨session, phases⟩ := race
  simp only [counts?] at hover ⊢
  induction phases with
  | nil => exact ⟨[], rfl⟩
  | cons phase rest ih =>
    obtain ⟨counts, hfirst⟩ := hover 0 (by simp)
    obtain rfl : phase = .over counts := by simpa using hfirst
    obtain ⟨leaves, hleaves⟩ := ih fun index hindex => by
      simpa using hover (index + 1) (by simpa using hindex)
    exact ⟨counts :: leaves, by simp [List.mapM_cons, hleaves]⟩

end Race

namespace Session

open Race

variable {session : Session} {entries : List Entry} {order : List Nat}

/-- In a running session every order of the entries is the order of some schedule. -/
theorem exists_scannedBy_oneByOne (hrunning : session.cancelled = false)
    (horder : order.Perm (List.range entries.length)) :
    ∃ tree final, session.ScannedBy entries (oneByOne order) tree final := by
  have hmem : ∀ index, index ∈ order ↔ index < entries.length := fun index => by
    rw [horder.mem_iff, List.mem_range]
  have hwaiting : ∀ index ∈ order, (Race.start session entries).phases[index]? = some .waiting := by
    intro index hindex
    simp [Race.start, (hmem index).mp hindex]
  have hnodup : order.Nodup := horder.nodup_iff.mpr List.nodup_range
  obtain ⟨race, hsteps, hover, -⟩ :=
    exists_steps_oneByOne hrunning hnodup (fun index => (hmem index).mp) hwaiting
  have hlength : race.phases.length = entries.length :=
    ((reached_start session entries).steps hsteps).length_eq
  obtain ⟨leaves, hcounts⟩ := exists_counts?_of_over fun index hindex =>
    hover index ((hmem index).mpr (hlength ▸ hindex))
  obtain ⟨tree, htree⟩ := MergeTree.exists_leaves_eq leaves
  exact ⟨tree, _, race, hsteps, htree ▸ hcounts, rfl⟩

/-- A scan on one thread is what workers do that take turns in the order of the entries. -/
theorem exists_scannedBy_scan (hrunning : session.cancelled = false) (entries : List Entry) :
    ∃ tree, session.ScannedBy entries (oneByOne (List.range entries.length)) tree
      (session.scan entries).1 := by
  obtain ⟨tree, final, hscan⟩ :=
    exists_scannedBy_oneByOne hrunning (.refl (List.range entries.length))
  have hlinear := linearized_settled hscan
  have hstill : stopped session (oneByOne (List.range entries.length)) = false := by
    simp [stopped, hrunning, cancel_notMem_oneByOne]
  rw [settled_oneByOne] at hlinear
  have hfinal : final = (session.scan entries).1 := by
    have hcensus := hlinear.census
    have hfailures := hlinear.failures
    have hbatch := hlinear.batch
    have hstats := hlinear.stats
    obtain ⟨hgate, hcriteria, hcancelled⟩ := hlinear.settings
    rw [pick_range] at hcensus hfailures hbatch
    rw [hbatch, List.length_range, Nat.sub_self] at hstats
    rw [scan_of_running session entries hrunning]
    obtain ⟨gate, criteria, census, failures, stats, cancelled⟩ := final
    simp only at hcensus hfailures hstats hgate hcriteria hcancelled
    subst hcensus hfailures hstats hgate hcriteria
    simp [addStats, absorb, recordEntries, hcancelled, hstill, hrunning]
  exact ⟨tree, hfinal ▸ hscan⟩

end Session

end JarCensus
