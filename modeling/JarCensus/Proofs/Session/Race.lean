import Mathlib.Data.List.Perm.Basic
import JarCensus.Proofs.ClassFile.Exactness
import JarCensus.Proofs.Session.Run
import JarCensus.Session.Schedule

/-!
# Scans by several workers have a sequential account

However the workers interleave, what a scan leaves in the session is what settling the
admitted entries one by one leaves there, in the order in which the workers settled
them. Everything that does not depend on this order is therefore the same as after a
scan on one thread.
-/

namespace JarCensus

/-- The index that a move settles. -/
def Move.settled? : Move → Option Nat
  | .settle index => some index
  | _ => none

namespace Race

/-- The indices that moves settle, in their order. -/
def settled (moves : List Move) : List Nat := moves.filterMap Move.settled?

/-- The entries at indices, in the order of the indices. -/
def pick (entries : List Entry) (order : List Nat) : List Entry :=
  order.filterMap (entries[·]?)

/-- Whether a session is cancelled, or gets cancelled by the moves. -/
def stopped (session : Session) (moves : List Move) : Bool :=
  session.cancelled || moves.contains .cancel

/-- That the check of an index comes once among the moves, after the given ones. -/
def CheckedOnce (moves : List Move) (index : Nat) (before : List Move) : Prop :=
  ∃ after, moves = before ++ .check index :: after ∧
    .check index ∉ before ∧ .check index ∉ after

/-- Moves settle what the first of them settle and then what the last one settles. -/
theorem settled_append (moves : List Move) (move : Move) :
    settled (moves ++ [move]) = settled moves ++ move.settled?.toList := by
  cases move <;> simp [settled, Move.settled?]

/-- A check stays the only one when other moves follow. -/
theorem CheckedOnce.append {moves before : List Move} {index : Nat} {move : Move}
    (hchecked : CheckedOnce moves index before) (hmove : move ≠ .check index) :
    CheckedOnce (moves ++ [move]) index before := by
  obtain ⟨after, rfl, hbefore, hafter⟩ := hchecked
  refine ⟨after ++ [move], by simp, hbefore, ?_⟩
  simp [hafter, hmove.symm]

/-- A check that was still to come is the only one once it is made. -/
theorem CheckedOnce.now {moves : List Move} {index : Nat} (hmoves : .check index ∉ moves) :
    CheckedOnce (moves ++ [.check index]) index moves :=
  ⟨[], rfl, hmoves, by simp⟩

/-- There is only one place for a check that is made once. -/
theorem CheckedOnce.eq_before {moves before other after : List Move} {index : Nat}
    (hchecked : CheckedOnce moves index before)
    (hmoves : moves = other ++ .check index :: after) : other = before := by
  obtain ⟨rest, rfl, hbefore, hrest⟩ := hchecked
  exact ((List.append_cons_inj_of_notMem hbefore hrest).mp hmoves).1.symm

/-- What the moves so far say about the phase of an index. -/
def Standing (session : Session) (entries : List Entry) (moves : List Move) (index : Nat) :
    Phase → Prop
  | .waiting => .check index ∉ moves ∧ index ∉ settled moves
  | .admitted =>
    index ∉ settled moves ∧
      ∃ before, CheckedOnce moves index before ∧ stopped session before = false
  | .over found =>
    ∃ before, CheckedOnce moves index before ∧
      if stopped session before then index ∉ settled moves ∧ found = Session.passedOver
      else index ∈ settled moves ∧ ∃ entry, entries[index]? = some entry ∧
        found = Session.counts session.gate session.criteria [entry] 0

/-- Moves for other indices leave the standing of an index as it is. -/
theorem Standing.append {session : Session} {entries : List Entry} {moves : List Move}
    {index : Nat} {phase : Phase} {move : Move}
    (hstanding : Standing session entries moves index phase)
    (hcheck : move ≠ .check index) (hsettle : move ≠ .settle index) :
    Standing session entries (moves ++ [move]) index phase := by
  have hsettled : index ∈ settled (moves ++ [move]) ↔ index ∈ settled moves := by
    rw [settled_append]
    cases move <;> simp_all [Move.settled?, eq_comm]
  rcases phase with _ | _ | found
  · obtain ⟨hunchecked, hunsettled⟩ := hstanding
    refine ⟨?_, hsettled.not.mpr hunsettled⟩
    simp [hunchecked, hcheck.symm]
  · obtain ⟨hunsettled, before, hchecked, hrunning⟩ := hstanding
    exact ⟨hsettled.not.mpr hunsettled, before, hchecked.append hcheck, hrunning⟩
  · obtain ⟨before, hchecked, hfound⟩ := hstanding
    refine ⟨before, hchecked.append hcheck, ?_⟩
    rw [hsettled]
    exact hfound

/-- What a race looks like after moves: the settled entries are absorbed, in the order of the
moves, and every phase is as the moves say. -/
structure Reached (session : Session) (entries : List Entry) (moves : List Move)
    (race : Race) : Prop where
  /-- The settled entries are absorbed, and a cancel among the moves has been noticed. -/
  session_eq : race.session =
    { session.absorb (pick entries (settled moves)) with cancelled := stopped session moves }
  /-- There is a phase for each entry. -/
  length_eq : race.phases.length = entries.length
  /-- Every phase is as the moves say. -/
  standing : ∀ index phase, race.phases[index]? = some phase →
    Standing session entries moves index phase
  /-- No index is settled twice. -/
  nodup : (settled moves).Nodup
  /-- Only the indices of entries are settled. -/
  bounded : ∀ index ∈ settled moves, index < entries.length
  /-- Only the indices of entries are checked. -/
  checks : ∀ index, .check index ∈ moves → index < entries.length

section Steps

variable {session : Session} {entries : List Entry} {moves : List Move} {race : Race}

/-- Before the first move nothing is settled and all checks are still to come. -/
theorem reached_start (session : Session) (entries : List Entry) :
    Reached session entries [] (start session entries) where
  session_eq := by simp [start, settled, pick, Session.absorb_nil, stopped]
  length_eq := by simp [start]
  standing := by
    intro index phase hphase
    simp only [start, List.getElem?_map, Option.map_eq_some_iff] at hphase
    obtain ⟨entry, -, rfl⟩ := hphase
    exact ⟨by simp, by simp [settled]⟩
  nodup := by simp [settled]
  bounded := by simp [settled]
  checks := by simp

/-- A cancel stops the session and changes nothing else. -/
theorem Reached.cancel (hreached : Reached session entries moves race) :
    Reached session entries (moves ++ [.cancel]) { race with session := race.session.cancel } where
  session_eq := by
    rw [hreached.session_eq, settled_append]
    simp [Session.cancel, stopped, Move.settled?]
  length_eq := hreached.length_eq
  standing := fun index phase hphase =>
    (hreached.standing index phase hphase).append (by simp) (by simp)
  nodup := by simpa [settled_append, Move.settled?] using hreached.nodup
  bounded := by simpa [settled_append, Move.settled?] using hreached.bounded
  checks := by simpa using hreached.checks

/-- A check admits its entry unless the session has been stopped before. -/
theorem Reached.check (hreached : Reached session entries moves race) {index : Nat}
    (hwaiting : race.phases[index]? = some .waiting) :
    Reached session entries (moves ++ [.check index])
      { race with
        phases := race.phases.set index
          (if race.session.cancelled then .over Session.passedOver else .admitted) } where
  session_eq := by
    rw [hreached.session_eq, settled_append]
    simp [stopped, Move.settled?]
  length_eq := by simpa using hreached.length_eq
  standing := by
    intro other phase hphase
    by_cases hother : index = other
    · subst hother
      obtain ⟨hunchecked, hunsettled⟩ := hreached.standing index .waiting hwaiting
      have hstopped : race.session.cancelled = stopped session moves := by
        rw [hreached.session_eq]
      have hstill : index ∉ settled (moves ++ [.check index]) := by
        simpa [settled_append, Move.settled?] using hunsettled
      obtain ⟨hlength, -⟩ := List.getElem?_eq_some_iff.mp hwaiting
      simp only [List.getElem?_set_self hlength, Option.some.injEq] at hphase
      subst hphase
      rw [hstopped]
      cases hverdict : stopped session moves with
      | true => exact ⟨moves, .now hunchecked, by simp [hverdict, hstill]⟩
      | false => exact ⟨hstill, moves, .now hunchecked, hverdict⟩
    · rw [List.getElem?_set_ne hother] at hphase
      exact (hreached.standing other phase hphase).append (by simpa using hother) (by simp)
  nodup := by simpa [settled_append, Move.settled?] using hreached.nodup
  bounded := by simpa [settled_append, Move.settled?] using hreached.bounded
  checks := by
    intro other hother
    rcases List.mem_append.mp hother with hbefore | hnow
    · exact hreached.checks other hbefore
    · obtain ⟨hlength, -⟩ := List.getElem?_eq_some_iff.mp hwaiting
      simp only [List.mem_singleton, Move.check.injEq] at hnow
      rw [hnow, ← hreached.length_eq]
      exact hlength

/-- Settling an admitted entry absorbs it after those that were settled before. -/
theorem Reached.settle (hreached : Reached session entries moves race) {index : Nat}
    {entry : Entry} (hentry : entries[index]? = some entry)
    (hadmitted : race.phases[index]? = some .admitted) :
    Reached session entries (moves ++ [.settle index])
      ⟨(race.session.settle entry).1,
        race.phases.set index (.over (race.session.settle entry).2)⟩ where
  session_eq := by
    have hpick : pick entries (settled (moves ++ [.settle index])) =
        pick entries (settled moves) ++ [entry] := by
      simp [settled_append, Move.settled?, pick, hentry]
    rw [Session.settle_eq, hreached.session_eq, hpick, Session.absorb_append]
    simp [stopped, Session.absorb, Session.recordEntries]
  length_eq := by simpa using hreached.length_eq
  standing := by
    intro other phase hphase
    by_cases hother : index = other
    · subst hother
      obtain ⟨-, before, hchecked, hrunning⟩ := hreached.standing index .admitted hadmitted
      obtain ⟨hlength, -⟩ := List.getElem?_eq_some_iff.mp hadmitted
      simp only [List.getElem?_set_self hlength, Option.some.injEq] at hphase
      subst hphase
      refine ⟨before, hchecked.append (by simp), ?_⟩
      rw [hrunning, Session.settle_eq, hreached.session_eq]
      exact ⟨by simp [settled_append, Move.settled?], entry, hentry, rfl⟩
    · rw [List.getElem?_set_ne hother] at hphase
      exact (hreached.standing other phase hphase).append (by simp) (by simpa using hother)
  nodup := by
    have hunsettled := (hreached.standing index .admitted hadmitted).1
    rw [settled_append]
    refine List.nodup_append.mpr ⟨hreached.nodup, by simp [Move.settled?], ?_⟩
    rintro other hmem now hnow rfl
    simp only [Move.settled?, Option.toList_some, List.mem_singleton] at hnow
    exact hunsettled (hnow ▸ hmem)
  bounded := by
    intro other hmem
    rw [settled_append] at hmem
    rcases List.mem_append.mp hmem with hbefore | hnow
    · exact hreached.bounded other hbefore
    · obtain ⟨hlength, -⟩ := List.getElem?_eq_some_iff.mp hentry
      simp only [Move.settled?, Option.toList_some, List.mem_singleton] at hnow
      exact hnow ▸ hlength
  checks := by simpa using hreached.checks

/-- Every possible step keeps the race as its moves say. -/
theorem Reached.step (hreached : Reached session entries moves race) {move : Move} {next : Race}
    (hstep : race.step? entries move = some next) :
    Reached session entries (moves ++ [move]) next := by
  cases move with
  | cancel =>
    cases hstep
    exact hreached.cancel
  | check index =>
    simp only [step?, Option.ite_none_right_eq_some, Option.some.injEq] at hstep
    obtain ⟨hwaiting, rfl⟩ := hstep
    exact hreached.check hwaiting
  | settle index =>
    cases hentry : entries[index]? with
    | none => simp [step?, hentry] at hstep
    | some entry =>
      simp only [step?, hentry, Option.ite_none_right_eq_some, Option.some.injEq] at hstep
      obtain ⟨hadmitted, rfl⟩ := hstep
      exact hreached.settle hentry hadmitted

/-- Every run of possible steps leads to a race that is as its moves say. -/
theorem Reached.steps (hreached : Reached session entries moves race) {more : List Move}
    {final : Race} (hsteps : race.steps? entries more = some final) :
    Reached session entries (moves ++ more) final := by
  induction more generalizing moves race with
  | nil =>
    cases hsteps
    simpa using hreached
  | cons move rest ih =>
    simp only [steps?, Option.bind_eq_bind, Option.bind_eq_some_iff] at hsteps
    obtain ⟨next, hnext, hrest⟩ := hsteps
    simpa using ih (hreached.step hnext) hrest

end Steps

/-- The work on all entries is over when there are counts, and the counts are those that the
phases hold. -/
theorem phases_eq_of_counts? {race : Race} {leaves : List Stats}
    (hcounts : race.counts? = some leaves) : race.phases = leaves.map .over := by
  obtain ⟨session, phases⟩ := race
  simp only [counts?] at hcounts ⊢
  induction phases generalizing leaves with
  | nil =>
    cases hcounts
    rfl
  | cons phase rest ih =>
    simp only [List.mapM_cons, Option.bind_eq_bind, Option.bind_eq_some_iff] at hcounts
    obtain ⟨first, hfirst, others, hothers, hleaves⟩ := hcounts
    cases hleaves
    rcases phase with _ | _ | counts
    · cases hfirst
    · cases hfirst
    · cases hfirst
      rw [ih hothers, List.map_cons]

section Counting

variable {gate : Decryption.Gate} {criteria : Criteria}

/-- What an index adds to the counts when the given indices are settled. -/
def share (gate : Decryption.Gate) (criteria : Criteria) (entries : List Entry)
    (order : List Nat) (index : Nat) : Stats :=
  if index ∈ order then Session.counts gate criteria (pick entries [index]) 0
  else Session.passedOver

/-- Any indices together add the counts of the settled ones among them, and the others are
skipped. -/
theorem sum_share (entries : List Entry) (order indices : List Nat) :
    Stats.sum (indices.map (share gate criteria entries order)) =
      Session.counts gate criteria (pick entries (indices.filter (· ∈ order)))
        (indices.countP (· ∉ order)) := by
  induction indices with
  | nil => rfl
  | cons index rest ih =>
    have hsum : Stats.sum ((index :: rest).map (share gate criteria entries order)) =
        (share gate criteria entries order index).add
          (Stats.sum (rest.map (share gate criteria entries order))) := rfl
    rw [hsum, ih]
    by_cases hindex : index ∈ order
    · have hpick : pick entries (index :: rest.filter (· ∈ order)) =
          pick entries [index] ++ pick entries (rest.filter (· ∈ order)) := by
        rw [pick, ← List.singleton_append, List.filterMap_append]
        rfl
      simp only [share, hindex, if_true]
      rw [← Session.counts_append, ← hpick]
      simp [hindex]
    · have hpassed : Session.passedOver = Session.counts gate criteria [] 1 := rfl
      simp only [share, hindex, if_false]
      rw [hpassed, ← Session.counts_append]
      simp [hindex, Nat.add_comm]

/-- Every index of the entries picks its own entry. -/
theorem pick_range (entries : List Entry) : pick entries (List.range entries.length) = entries := by
  induction entries with
  | nil => rfl
  | cons entry rest ih =>
    simp only [pick, List.length_cons, List.range_succ_eq_map, List.filterMap_cons,
      List.getElem?_cons_zero, List.filterMap_map, Function.comp_def, Nat.succ_eq_add_one,
      List.getElem?_cons_succ] at ih ⊢
    rw [ih]

/-- Distinct indices of entries are those below their number that are among them. -/
theorem perm_filter_range {order : List Nat} {length : Nat} (hnodup : order.Nodup)
    (hbounded : ∀ index ∈ order, index < length) :
    order.Perm ((List.range length).filter (· ∈ order)) := by
  refine (List.perm_ext_iff_of_nodup hnodup (List.nodup_range.filter _)).mpr fun index => ?_
  simp only [List.mem_filter, List.mem_range, decide_eq_true_eq]
  exact ⟨fun hmem => ⟨hbounded index hmem, hmem⟩, fun hmem => hmem.2⟩

/-- As many indices are left out as there are entries besides the settled ones. -/
theorem countP_left_out {order : List Nat} {length : Nat} (hnodup : order.Nodup)
    (hbounded : ∀ index ∈ order, index < length) :
    (List.range length).countP (· ∉ order) = length - order.length := by
  have hsplit : (List.range length).length =
      (List.range length).countP (· ∈ order) +
        (List.range length).countP fun index => ¬ decide (index ∈ order) = true :=
    List.length_eq_countP_add_countP _
  have hlength := (perm_filter_range hnodup hbounded).length_eq
  rw [← List.countP_eq_length_filter] at hlength
  simp only [List.length_range, decide_eq_true_eq] at hsplit
  omega

end Counting

section Over

variable {session : Session} {entries : List Entry} {moves : List Move} {race : Race}
  {leaves : List Stats}

/-- When the work on all entries is over, there are counts for each entry. -/
theorem Reached.length_leaves (hreached : Reached session entries moves race)
    (hphases : race.phases = leaves.map .over) : leaves.length = entries.length := by
  rw [← hreached.length_eq, hphases, List.length_map]

/-- When the work on all entries is over, every entry was checked once, it was settled unless
the session had been stopped by then, and its counts are its share. -/
theorem Reached.place_of_over (hreached : Reached session entries moves race)
    (hphases : race.phases = leaves.map .over) {index : Nat} (hindex : index < leaves.length) :
    ∃ before, CheckedOnce moves index before ∧
      (index ∈ settled moves ↔ stopped session before = false) ∧
      leaves[index] = share session.gate session.criteria entries (settled moves) index := by
  have hphase : race.phases[index]? = some (.over leaves[index]) := by simp [hphases, hindex]
  obtain ⟨before, hchecked, hfound⟩ := hreached.standing index _ hphase
  refine ⟨before, hchecked, ?_⟩
  cases hstopped : stopped session before with
  | true =>
    rw [hstopped, if_pos rfl] at hfound
    obtain ⟨hunsettled, heq⟩ := hfound
    simp [share, hunsettled, heq]
  | false =>
    rw [hstopped, if_neg (by simp)] at hfound
    obtain ⟨hsettled, entry, hentry, heq⟩ := hfound
    simp [share, hsettled, heq, pick, hentry]

/-- When the work on all entries is over, the counts are the shares of the indices, in the
order of the entries. -/
theorem Reached.leaves_eq (hreached : Reached session entries moves race)
    (hphases : race.phases = leaves.map .over) :
    leaves = (List.range entries.length).map
      (share session.gate session.criteria entries (settled moves)) := by
  have hlength := hreached.length_leaves hphases
  refine List.ext_getElem (by simp [hlength]) fun index hindex _ => ?_
  obtain ⟨_, -, -, hshare⟩ := hreached.place_of_over hphases hindex
  simpa using hshare

end Over

end Race

namespace Session

open Race

variable {session final : Session} {entries : List Entry} {moves : List Move}
  {tree : MergeTree} {order : List Nat}

/-- What a scan by several workers leaves behind when the processed entries are taken in a
given order of their indices. -/
structure Linearized (session : Session) (entries : List Entry) (moves : List Move)
    (tree : MergeTree) (final : Session) (order : List Nat) : Prop where
  /-- The check of every entry is made. -/
  checked : ∀ index < entries.length, .check index ∈ moves
  /-- An entry is processed exactly when its check came before any cancel. -/
  admitted : ∀ before index after, moves = before ++ .check index :: after →
    (index ∈ order ↔ session.cancelled = false ∧ .cancel ∉ before)
  /-- No entry is processed twice. -/
  nodup : order.Nodup
  /-- Only the entries of the scan are processed. -/
  bounded : ∀ index ∈ order, index < entries.length
  /-- The classes of the processed entries are recorded one by one in this order. -/
  census : final.census = session.census.recordAll
    ((pick entries order).filterMap (recording? session.gate session.criteria))
  /-- The failures of the processed entries are added in this order, each once. -/
  failures : final.failures = session.failures ++
    (pick entries order).filterMap (failure? session.gate)
  /-- The counts of the scan are those of the processed entries, and all others are skipped. -/
  batch : tree.total = counts session.gate session.criteria (pick entries order)
    (entries.length - order.length)
  /-- The counts of the scan are added to those of the session. -/
  stats : final.stats = session.stats.add tree.total
  /-- The gate and the criteria stay, and the session is cancelled if one of the moves is a
  cancel. -/
  settings : final.gate = session.gate ∧ final.criteria = session.criteria ∧
    final.cancelled = stopped session moves

/-- The order in which the workers settle entries accounts for all that they do. -/
theorem linearized_settled (hscan : session.ScannedBy entries moves tree final) :
    Linearized session entries moves tree final (settled moves) := by
  obtain ⟨race, hsteps, hcounts, rfl⟩ := hscan
  have hreached : Reached session entries moves race := by
    simpa using (reached_start session entries).steps hsteps
  have hphases := phases_eq_of_counts? hcounts
  have hlength := hreached.length_leaves hphases
  constructor
  case checked =>
    intro index hindex
    obtain ⟨before, ⟨after, hmoves, -⟩, -⟩ :=
      hreached.place_of_over hphases (hlength ▸ hindex)
    simp [hmoves]
  case admitted =>
    intro before index after hmoves
    have hindex : index < entries.length := hreached.checks index (by simp [hmoves])
    obtain ⟨place, hchecked, hsettled, -⟩ :=
      hreached.place_of_over hphases (hlength ▸ hindex)
    rw [hchecked.eq_before hmoves, hsettled]
    simp [stopped]
  case nodup => exact hreached.nodup
  case bounded => exact hreached.bounded
  case census => rw [hreached.session_eq]; rfl
  case failures => rw [hreached.session_eq]; rfl
  case batch =>
    rw [MergeTree.total_eq_sum, hreached.leaves_eq hphases, sum_share,
      countP_left_out hreached.nodup hreached.bounded]
    exact counts_perm ((perm_filter_range hreached.nodup hreached.bounded).symm.filterMap _) _
  case stats => rw [hreached.session_eq]; rfl
  case settings => rw [hreached.session_eq]; exact ⟨rfl, rfl, rfl⟩

/-- Without a cancel the workers process what a scan on one thread processes, in some order. -/
theorem Linearized.perm_inTime (hlinear : Linearized session entries moves tree final order)
    (hmoves : .cancel ∉ moves) : order.Perm (if session.cancelled then []
      else List.range entries.length) := by
  have hmem : ∀ index < entries.length, index ∈ order ↔ session.cancelled = false := by
    intro index hindex
    obtain ⟨before, after, hsplit⟩ := List.append_of_mem (hlinear.checked index hindex)
    have hbefore : .cancel ∉ before := fun h => hmoves (hsplit ▸ List.mem_append_left _ h)
    simpa [hbefore] using hlinear.admitted before index after hsplit
  cases hcancelled : session.cancelled with
  | true =>
    have hnone : order = [] := by
      refine List.eq_nil_iff_forall_not_mem.mpr fun index hindex => ?_
      simpa [hcancelled] using (hmem index (hlinear.bounded index hindex)).mp hindex
    simp [hnone]
  | false =>
    refine (List.perm_ext_iff_of_nodup hlinear.nodup List.nodup_range).mpr fun index => ?_
    rw [List.mem_range]
    exact ⟨hlinear.bounded index, fun hindex => (hmem index hindex).mpr hcancelled⟩

/-- Without a cancel the processed entries are those of a scan on one thread, in some order. -/
theorem Linearized.pick_perm (hlinear : Linearized session entries moves tree final order)
    (hmoves : .cancel ∉ moves) : (pick entries order).Perm (session.inTime entries) := by
  have hpick := (hlinear.perm_inTime hmoves).filterMap (entries[·]?)
  unfold inTime
  cases hcancelled : session.cancelled with
  | true => simpa [hcancelled, pick] using hpick
  | false =>
    rw [hcancelled, if_neg (by simp)] at hpick
    exact hpick.trans (.of_eq (pick_range entries))

/-- What a scan by several workers has in common with a scan on one thread. -/
structure AgreesWithScan (session : Session) (entries : List Entry) (tree : MergeTree)
    (final : Session) : Prop where
  /-- The counts of the scan are the same. -/
  batch : tree.total = (session.scan entries).2
  /-- The counts of the session are the same. -/
  stats : final.stats = (session.scan entries).1.stats
  /-- The same names are recorded under each category and origin. -/
  names : ∀ category isRoot, final.census.names category isRoot =
    (session.scan entries).1.census.names category isRoot
  /-- The same failures are kept, in some order. -/
  failures : final.failures.Perm (session.scan entries).1.failures
  /-- The same descriptors are recorded when no two entries are recorded under one key. -/
  census : ((entries.filterMap (recording? session.gate session.criteria)).map Census.key).Nodup →
    final.census = (session.scan entries).1.census

/-- Without a cancel an account of what the workers did agrees with a scan on one thread. -/
theorem Linearized.agrees (hlinear : Linearized session entries moves tree final order)
    (hmoves : .cancel ∉ moves) : AgreesWithScan session entries tree final := by
  have hpick := hlinear.pick_perm hmoves
  have hlength : order.length = (session.inTime entries).length := by
    rw [(hlinear.perm_inTime hmoves).length_eq, inTime]
    split <;> simp
  have hbatch : tree.total = (session.scan entries).2 := by
    rw [hlinear.batch, scan_eq, hlength]
    exact counts_perm hpick _
  constructor
  case batch => exact hbatch
  case stats =>
    rw [hlinear.stats, hbatch, scan_eq]
    rfl
  case names =>
    intro category isRoot
    rw [hlinear.census, scan_eq]
    exact Census.names_recordAll_perm session.census (hpick.filterMap _) category isRoot
  case failures =>
    rw [hlinear.failures, scan_eq]
    exact (hpick.filterMap _).append_left session.failures
  case census =>
    intro hkeys
    rw [hlinear.census, scan_eq]
    refine (Census.recordAll_perm session.census (hpick.filterMap _).symm ?_).symm
    unfold inTime
    split
    · exact List.nodup_nil
    · exact hkeys

/-- A scan by several workers does what settling the admitted entries one by one does, in some
order, whatever the interleaving, the tree and the place of a cancel. Without a cancel it
agrees with a scan on one thread in all that does not depend on the order. -/
theorem scannedBy_linearized (hscan : session.ScannedBy entries moves tree final) :
    (∃ order, Linearized session entries moves tree final order) ∧
      (.cancel ∉ moves → AgreesWithScan session entries tree final) :=
  ⟨⟨settled moves, linearized_settled hscan⟩, (linearized_settled hscan).agrees⟩

/-- An entry of the main archive with one class, and what else its stream gives. -/
def annotatedEntry (name : String) (rest : Bytes) : Entry :=
  ⟨name, true, none, .content (ClassFile.annotatedClass.encode ++ rest)⟩

/-- A session without a gate, for which the class of these entries is a model. -/
def annotatedSession : Session := start .disabled ⟨["E"], []⟩

/-- Two workers record one class in the order opposite to the entries, and a cancel between
their steps keeps a third entry from being processed. -/
theorem scannedBy_linearized_opposite :
    let entries := [annotatedEntry "a" [], annotatedEntry "b" [0], annotatedEntry "c" [1]]
    let moves : List Move := [.check 1, .check 0, .settle 1, .cancel, .settle 0, .check 2]
    let tree : MergeTree :=
      .node (.node (.leaf ⟨1, 1, 0, 0, 0⟩) (.leaf ⟨1, 1, 0, 0, 0⟩)) (.leaf ⟨0, 0, 0, 0, 1⟩)
    let final : Session :=
      { annotatedSession with
        census := (Census.empty.record ⟨"A", .model, (annotatedEntry "b" [0]).stream, false⟩
          true).record ⟨"A", .model, (annotatedEntry "a" []).stream, false⟩ true
        stats := ⟨2, 2, 0, 0, 1⟩
        cancelled := true }
    annotatedSession.ScannedBy entries moves tree final ∧
      (∃ order, Linearized annotatedSession entries moves tree final order) ∧
        (.cancel ∉ moves → AgreesWithScan annotatedSession entries tree final) := by
  intro entries moves tree final
  have hfirst : examineEntry .disabled ⟨["E"], []⟩ (annotatedEntry "a" []) =
      .ok ⟨⟨"A", ["E"]⟩, .model, false⟩ := by decide +kernel
  have hsecond : examineEntry .disabled ⟨["E"], []⟩ (annotatedEntry "b" [0]) =
      .ok ⟨⟨"A", ["E"]⟩, .model, false⟩ := by decide +kernel
  have hroot : ∀ name rest, (annotatedEntry name rest).isRoot = true := fun _ _ => rfl
  have hscan : annotatedSession.ScannedBy entries moves tree final := by
    refine ⟨⟨{ final with stats := .zero },
      [.over ⟨1, 1, 0, 0, 0⟩, .over ⟨1, 1, 0, 0, 0⟩, .over ⟨0, 0, 0, 0, 1⟩]⟩, ?_, rfl, rfl⟩
    simp [Race.steps?, Race.step?, Race.start, settle, handle, hfirst, hsecond, hroot, entries,
      moves, final, annotatedSession, start, cancel, describe, Stats.zero, passedOver]
  exact ⟨hscan, scannedBy_linearized hscan⟩

end Session

end JarCensus
