import GhReport.App.Evidence
import GhReport.App.Policy
import GhReport.Inventory.Listing

/-! # Scheduled runs beside other writers

A run loads the inventory, sweeps, and then marks as deleted what the projection
holds and the inventory does not. Other writers may write at any point between
its steps, the attempts of a retried write included.
-/

namespace GhReport.Collect

open Domain Projection App Inventory GitHub EvidenceProjection
open Event (OrgMembershipFetchStatus)

/-! ## Machine -/

/-- An inventory that was loaded, with the answers that it was loaded from. -/
structure LoadedInventory (S : Source) where
  env : RequestEnvironment
  maxRepos : MaxRepos
  validated : ValidatedInventory
  loaded : S.loadActiveRepositories env = .ok validated

/-- A run after its inventory is fetched; `atFetch` is the projection at that time. -/
structure SweepRun (S : Source) where
  inventory : LoadedInventory S
  timestamp : String
  atFetch : EvidenceProjection

/-- Marks are made one attempt after another, `attempt` counting those on the first of them. -/
inductive SweepPhase (S : Source) where
  | idle
  | sweeping (run : SweepRun S)
  | reconciling (run : SweepRun S) (disappeared : List (String × String)) (attempt : ℕ)

/-- The writers beside a run: delivery, webhooks, finalization and the refresh of teams. -/
inductive Writer where
  | deliver (evidence : RepositoryEvidence) (timestamp : String)
  | remove (inventoryKey timestamp : String)
  | recordOrg (snapshot : OrgStateSnapshot)
  | recordTeam (org : String) (roster : TeamRoster) (fetchedAt : String)
      (orgMembershipFetchStatus : OrgMembershipFetchStatus)
  | detachTeam (org : String) (roster : TeamRoster) (fetchedAt : String)
      (orgMembershipFetchStatus : OrgMembershipFetchStatus)

/-- A job is keyed by the inventory key of its repository, and so is its outcome. -/
def Writer.op : Writer → WriteOp
  | .deliver evidence timestamp =>
    .recordRepo evidence.repository.inventoryKey evidence evidence.repository.name timestamp
  | .remove inventoryKey timestamp => .removeRepo inventoryKey inventoryKey timestamp
  | .recordOrg snapshot => .recordOrg snapshot
  | .recordTeam org roster fetchedAt status => .recordTeam org roster fetchedAt status
  | .detachTeam org roster fetchedAt status => .detachTeam org roster fetchedAt status

inductive SweepInput where
  | write (writer : Writer) (fates : Fates)
  | load (env : RequestEnvironment) (maxRepos : MaxRepos) (timestamp : String)
  | reconcile
  | mark (fates : Fates)
  | abort

structure Sweep (S : Source) where
  app : AppState
  phase : SweepPhase S

def keyNameSnapshot (p : EvidenceProjection) : List (String × String) :=
  p.repositories.toList.map fun entry =>
    (entry.2.repository.inventoryKey, entry.2.repository.name)

namespace SweepRun

variable {S : Source} (run : SweepRun S)

def admitted : AdmittedInventory :=
  boundActiveRepositories run.inventory.validated run.inventory.maxRepos

/-- The keys to mark, with their names; none without the authority to delete. -/
def disappeared (p : EvidenceProjection) : List (String × String) :=
  match run.admitted.deletionAuthority with
  | none => []
  | some authority => (keyNameSnapshot p).filter fun entry => !authority.contains entry.1

/-- The key of some repository of the inventory. -/
def Lists (key : String) : Prop :=
  key ∈ run.inventory.validated.activeRepos.map Repository.inventoryKey

instance (key : String) : Decidable (run.Lists key) := inferInstanceAs (Decidable (_ ∈ _))

/-- The phase after an attempt at the first mark of a reconciliation. -/
def afterAttempt (entry : String × String) (rest : List (String × String)) (attempt : ℕ)
    (answer : Except (Stop PersistenceError) Unit) : SweepPhase S :=
  match attempted attempt answer with
  | .done => .reconciling run rest 1
  | .again => .reconciling run (entry :: rest) (attempt + 1)
  | .failed => .idle

end SweepRun

/-- The answer of a step is that of its write, if it makes one. -/
abbrev SweepAnswer := Option (Except (Stop PersistenceError) Unit)

namespace Sweep

variable {S : Source} (s : Sweep S)

/-- The listing is fetched; the run goes on only with a valid one. -/
def load (env : RequestEnvironment) (maxRepos : MaxRepos) (timestamp : String) : Sweep S :=
  match s.phase with
  | .idle =>
    match h : S.loadActiveRepositories env with
    | .error _ => s
    | .ok validated =>
      let inventory := ⟨env, maxRepos, validated, h⟩
      { s with phase := .sweeping ⟨inventory, timestamp, s.app.projectionState.value⟩ }
  | _ => s

/-- A poisoned projection panics, which ends the run. -/
def reconcileDeletedRepositories : Sweep S :=
  match s.phase with
  | .sweeping run =>
    if s.app.projectionState.poisoned then { s with phase := .idle }
    else { s with phase := .reconciling run (run.disappeared s.app.projectionState.value) 1 }
  | _ => s

def markRepoDeleted (R : Runtime) (fates : Fates) : SweepAnswer × Sweep S :=
  match s.phase with
  | .reconciling _ [] _ => (none, { s with phase := .idle })
  | .reconciling run (entry :: rest) attempt =>
    let written := (App.machine R).step s.app
      (.markRepoDeleted entry.1 entry.2 run.timestamp, fates)
    (some written.1, ⟨written.2, run.afterAttempt entry rest attempt written.1⟩)
  | _ => (none, s)

end Sweep

/-- The scheduled runs of one process, one after another, beside other writers. -/
def machine (R : Runtime) (S : Source) : Machine (Sweep S) SweepInput SweepAnswer where
  step s
    | .write writer fates =>
      let written := (App.machine R).step s.app (writer.op, fates)
      (some written.1, { s with app := written.2 })
    | .load env maxRepos timestamp => (none, s.load env maxRepos timestamp)
    | .reconcile => (none, s.reconcileDeletedRepositories)
    | .mark fates => s.markRepoDeleted R fates
    | .abort => (none, { s with phase := .idle })

/-! ## What a step does -/

/-- The write that a step makes. -/
def Sweep.writeOf {S : Source} (s : Sweep S) : SweepInput → Option (WriteOp × Fates)
  | .write writer fates => some (writer.op, fates)
  | .mark fates =>
    match s.phase with
    | .reconciling run (entry :: _) _ =>
      some (.markRepoDeleted entry.1 entry.2 run.timestamp, fates)
    | _ => none
  | _ => none

/-- How a step turns the phase of the run. -/
inductive Turns {S : Source} (s : Sweep S) : SweepInput → SweepPhase S → Prop where
  | same {i : SweepInput} : Turns s i s.phase
  | ended {i : SweepInput} : Turns s i .idle
  | loaded {env : RequestEnvironment} {maxRepos : MaxRepos} {timestamp : String}
      {run : SweepRun S} (h : s.phase = .idle)
      (hfetch : run.atFetch = s.app.projectionState.value) :
      Turns s (.load env maxRepos timestamp) (.sweeping run)
  | reconciled {run : SweepRun S} (h : s.phase = .sweeping run) :
      Turns s .reconcile (.reconciling run (run.disappeared s.app.projectionState.value) 1)
  | marked {fates : Fates} {run : SweepRun S} {entry : String × String}
      {rest : List (String × String)} {attempt : ℕ}
      (h : s.phase = .reconciling run (entry :: rest) attempt) :
      Turns s (.mark fates) (.reconciling run rest 1)
  | retried {fates : Fates} {run : SweepRun S} {entry : String × String}
      {rest : List (String × String)} {attempt : ℕ}
      (h : s.phase = .reconciling run (entry :: rest) attempt) :
      Turns s (.mark fates) (.reconciling run (entry :: rest) (attempt + 1))

section Step

variable {R : Runtime} {S : Source} (s : Sweep S)

theorem app_step (i : SweepInput) :
    ((machine R S).step s i).2.app =
      match s.writeOf i with
      | some write => ((App.machine R).step s.app write).2
      | none => s.app := by
  cases i with
  | write writer fates => rfl
  | load env maxRepos timestamp =>
    simp only [machine, Sweep.load, Sweep.writeOf]
    split
    · split <;> rfl
    · rfl
  | reconcile =>
    simp only [machine, Sweep.reconcileDeletedRepositories, Sweep.writeOf]
    split
    · split <;> rfl
    · rfl
  | mark fates =>
    obtain ⟨app, phase⟩ := s
    cases phase with
    | idle => rfl
    | sweeping run => rfl
    | reconciling run disappeared attempt => cases disappeared <;> rfl
  | abort => rfl

theorem afterAttempt_turns (run : SweepRun S) (entry : String × String)
    (rest : List (String × String)) (attempt : ℕ) (fates : Fates)
    (answer : Except (Stop PersistenceError) Unit)
    (h : s.phase = .reconciling run (entry :: rest) attempt) :
    Turns s (.mark fates) (run.afterAttempt entry rest attempt answer) := by
  unfold SweepRun.afterAttempt
  split
  · exact .marked h
  · exact .retried h
  · exact .ended

theorem turns_step (i : SweepInput) : Turns s i ((machine R S).step s i).2.phase := by
  cases i with
  | write writer fates => exact .same
  | load env maxRepos timestamp =>
    simp only [machine, Sweep.load]
    split
    · next h =>
      split
      · exact .same
      · exact .loaded h rfl
    · exact .same
  | reconcile =>
    simp only [machine, Sweep.reconcileDeletedRepositories]
    split
    · next run h =>
      split
      · exact .ended
      · exact .reconciled h
    · exact .same
  | mark fates =>
    obtain ⟨app, phase⟩ := s
    cases phase with
    | idle => exact .same
    | sweeping run => exact .same
    | reconciling run disappeared attempt =>
      cases disappeared with
      | nil => exact .ended
      | cons entry rest => exact afterAttempt_turns _ run entry rest attempt fates _ rfl
  | abort => exact .ended

end Step

end GhReport.Collect
