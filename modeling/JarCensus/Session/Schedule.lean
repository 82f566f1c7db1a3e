import JarCensus.Session.Basic

/-!
# Scans by several workers

Workers take the entries of a scan in any interleaving. A worker first checks whether
the session is cancelled and, if it is not, later settles its entry in one step; a
cancel may come between any two steps. The counts of the entries are added up over a
tree that keeps their order.
-/

namespace JarCensus

/-- How far the work on an entry has come. -/
inductive Phase where
  /-- The check is still to come. -/
  | waiting
  /-- The check found no cancel. -/
  | admitted
  /-- The work is over. -/
  | over (counts : Stats)
  deriving DecidableEq, Repr

/-- A step of a scan. -/
inductive Move where
  /-- The worker of the entry at an index checks for a cancel. -/
  | check (index : Nat)
  /-- The worker of the entry at an index settles it. -/
  | settle (index : Nat)
  /-- The session is cancelled. -/
  | cancel
  deriving DecidableEq, Repr

/-- A scan in progress. -/
structure Race where
  /-- The session that the workers share. -/
  session : Session
  /-- How far the work on each entry has come. -/
  phases : List Phase

namespace Race

/-- The scan of entries before its first step. -/
def start (session : Session) (entries : List Entry) : Race :=
  ⟨session, entries.map fun _ => .waiting⟩

/-- The scan after a step, if the step is possible. -/
def step? (entries : List Entry) (race : Race) : Move → Option Race
  | .cancel => some { race with session := race.session.cancel }
  | .check index =>
    if race.phases[index]? = some .waiting then
      let phase := if race.session.cancelled then .over Session.passedOver else .admitted
      some { race with phases := race.phases.set index phase }
    else none
  | .settle index =>
    match entries[index]? with
    | some entry =>
      if race.phases[index]? = some .admitted then
        let (session, counts) := race.session.settle entry
        some ⟨session, race.phases.set index (.over counts)⟩
      else none
    | none => none

/-- The scan after steps, if each of them is possible. -/
def steps? (entries : List Entry) (race : Race) : List Move → Option Race
  | [] => some race
  | move :: rest => do (← race.step? entries move).steps? entries rest

/-- The counts of the entries, once the work on all of them is over. -/
def counts? (race : Race) : Option (List Stats) :=
  race.phases.mapM fun
    | .over counts => some counts
    | _ => none

end Race

/-- An order in which counts are added. -/
inductive MergeTree where
  /-- The counts of no entry. -/
  | zero
  /-- The counts of one entry. -/
  | leaf (counts : Stats)
  /-- The sum of two sums. -/
  | node (left right : MergeTree)
  deriving DecidableEq, Repr

namespace MergeTree

/-- The counts that are added, from left to right. -/
def leaves : MergeTree → List Stats
  | zero => []
  | leaf counts => [counts]
  | node left right => left.leaves ++ right.leaves

/-- The sum. -/
def total : MergeTree → Stats
  | zero => .zero
  | leaf counts => counts
  | node left right => left.total.add right.total

/-- The sum does not depend on the tree, only on the counts. -/
theorem total_eq_sum (tree : MergeTree) : tree.total = Stats.sum tree.leaves := by
  induction tree with
  | zero => rfl
  | leaf counts => exact (Stats.add_zero counts).symm
  | node left right hleft hright =>
    rw [total, leaves, Stats.sum_append, hleft, hright]

end MergeTree

namespace Session

/-- Whether workers may scan entries by the given moves and get to a final session: the
moves are possible, the work on all entries is over after them, and the session gets the
sum of their counts. -/
def ScannedBy (session : Session) (entries : List Entry) (moves : List Move)
    (tree : MergeTree) (final : Session) : Prop :=
  ∃ race, (Race.start session entries).steps? entries moves = some race ∧
    race.counts? = some tree.leaves ∧
    final = { race.session with stats := race.session.stats.add tree.total }

end Session

end JarCensus
