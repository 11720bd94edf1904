import GhReport.App.Policy
import GhReport.App.Rosters
import GhReport.Event.TeamKey
import GhReport.Teams.Membership

/-! # Team refresh ticks

A tick collects the rosters of all teams that CODEOWNERS or the organisation
names, writes each of them, and then detaches the rosters of teams that it did
not see, if its enumeration of the teams was whole. Other writers may write at
any point of a tick.
-/

namespace GhReport.Teams

open Domain Event Projection App GitHub EvidenceProjection Source

/-! ## Ticks -/

/-- What a tick is answered: the teams, the members of each, and those of the organisation. -/
structure TickAnswers where
  discovery : RequestEnvironment
  members : ℕ → RequestEnvironment
  orgMembers : RequestEnvironment
  fetchedAt : String
  now : ℕ → String

/-- A tick, from the evidence and the cache that it starts with. -/
structure Tick (S : Source) where
  answers : TickAnswers
  evidenceRepos : List Domain.RepositoryEvidence
  cache : TeamCache

/-- Add a listed team, unless its slug is there in some spelling. -/
def addTeam (org : String) (pairs : List (String × String)) (slug : String) :
    List (String × String) :=
  if pairs.any fun pair => eqIgnoreAsciiCase pair.2.toList slug.toList then pairs
  else pairs ++ [("@" ++ org ++ "/" ++ slug, slug)]

namespace Tick

variable {S : Source} (tick : Tick S)

def discovery : S.TeamDiscovery :=
  S.discoverOrgTeams (request S.client tick.answers.discovery S.teamsPath 1)

def codeownersTeams : List (String × String) := teamOwnerSlugs S.toLowercase tick.evidenceRepos

def teamPairs : List (String × String) :=
  (tick.discovery.slugs.map Subtype.val).foldl (addTeam S.client.orgName) tick.codeownersTeams

def currentKeys : List String :=
  tick.teamPairs.filterMap fun pair => (teamDomainKey S.client.orgName pair.2).toOption

def collected : List TeamRoster × TeamCache :=
  S.collectTeamRosters tick.answers.members tick.answers.now 0 tick.cache tick.teamPairs

def orgMembers : Option (List String) :=
  S.orgMembersFromOutcome (request S.client tick.answers.orgMembers S.orgMembersPath 1)

def orgMembershipFetchStatus : OrgMembershipFetchStatus :=
  if tick.orgMembers.isSome then .fetched else .degraded

def rosters : List TeamRoster :=
  S.enrichTeamRostersWithOrgMembership tick.orgMembers tick.collected.1

/-- The write of a roster. -/
def writeTeamEvent (detach : Bool) (roster : TeamRoster) : WriteOp :=
  if detach then
    .detachTeam S.client.orgName roster tick.answers.fetchedAt tick.orgMembershipFetchStatus
  else .recordTeam S.client.orgName roster tick.answers.fetchedAt tick.orgMembershipFetchStatus

/-- The rosters whose teams the tick did not see. -/
def stale (p : EvidenceProjection) : List (String × TeamRoster) :=
  p.teamRosters.toList.filter fun entry => !tick.currentKeys.contains entry.1

end Tick

/-! ## Machine -/

/-- The rosters still to be written, `attempt` counting the attempts on the first of them. -/
inductive TickPhase (S : Source) where
  | idle
  | recording (tick : Tick S) (rosters : List TeamRoster) (attempt : ℕ)
  | omitting (tick : Tick S) (stale : List (String × TeamRoster)) (attempt : ℕ)

/-- The refresh of one process: its client's cache outlives the ticks. -/
structure Refresh (S : Source) where
  app : AppState
  cache : TeamCache
  phase : TickPhase S

/-- A write of anything but a team; the rosters that a collection fetches itself are left out. -/
structure OtherWrite where
  op : WriteOp
  other : match op with
    | .recordTeam .. | .detachTeam .. => False
    | _ => True

inductive RefreshInput where
  | start (answers : TickAnswers)
  | advance (fates : Fates)
  | other (write : OtherWrite) (fates : Fates)

namespace Refresh

variable {S : Source} (s : Refresh S)

def evidenceRepos : List Domain.RepositoryEvidence :=
  s.app.projectionState.value.repositories.toList.map Prod.snd

/-- A tick starts when admission is open; a poisoned projection panics. -/
def start (answers : TickAnswers) : Refresh S :=
  match s.phase with
  | .idle =>
    if (lockWriteAdmission s.app).isSome || s.app.projectionState.poisoned then s
    else
      let tick : Tick S := ⟨answers, s.evidenceRepos, s.cache⟩
      { s with cache := tick.collected.2, phase := .recording tick tick.rosters 1 }
  | _ => s

/-- The roster that the next step writes, whether it detaches it, and its tick. -/
def teamWrite : Option (Tick S × Bool × TeamRoster) :=
  match s.phase with
  | .recording tick (roster :: _) _ => some (tick, roster.status = .deleted, roster)
  | .omitting tick (entry :: _) _ => some (tick, true, entry.2)
  | _ => none

/-- The phase after an attempt. -/
def afterAttempt (answer : Except (Stop PersistenceError) Unit) : TickPhase S :=
  match s.phase with
  | .recording tick (roster :: rest) attempt =>
    match attempted attempt answer with
    | .done => .recording tick rest 1
    | .again => .recording tick (roster :: rest) (attempt + 1)
    | .failed => .idle
  | .omitting tick (entry :: rest) attempt =>
    match attempted attempt answer with
    | .done => .omitting tick rest 1
    | .again => .omitting tick (entry :: rest) (attempt + 1)
    | .failed => .idle
  | phase => phase

/-- After the rosters come the omissions, if the enumeration of the teams was whole. -/
def finish : TickPhase S :=
  match s.phase with
  | .recording tick [] _ =>
    if !tick.discovery.authorizesOmissionDetach || s.app.projectionState.poisoned then .idle
    else .omitting tick (tick.stale s.app.projectionState.value) 1
  | .omitting _ [] _ => .idle
  | phase => phase

end Refresh

/-- The answer of a step is that of its write, if it makes one. -/
abbrev RefreshAnswer := Option (Except (Stop PersistenceError) Unit)

def machine (R : Runtime) (S : Source) : Machine (Refresh S) RefreshInput RefreshAnswer where
  step s
    | .start answers => (none, s.start answers)
    | .other write fates =>
      let written := (App.machine R).step s.app (write.op, fates)
      (some written.1, { s with app := written.2 })
    | .advance fates =>
      match s.teamWrite with
      | some (tick, detach, roster) =>
        let written := (App.machine R).step s.app (tick.writeTeamEvent detach roster, fates)
        (some written.1, ⟨written.2, s.cache, s.afterAttempt written.1⟩)
      | none => (none, { s with phase := s.finish })

/-! ## What a step does -/

/-- The write that a step makes. -/
def Refresh.writeOf {S : Source} (s : Refresh S) : RefreshInput → Option (WriteOp × Fates)
  | .start _ => none
  | .other write fates => some (write.op, fates)
  | .advance fates =>
    s.teamWrite.map fun write => (write.1.writeTeamEvent write.2.1 write.2.2, fates)

/-- How a step turns the phase: what was written leaves it, and omissions come after rosters. -/
inductive Turns {S : Source} (s : Refresh S) :
    RefreshInput → RefreshAnswer → TickPhase S → Prop where
  | same {i : RefreshInput} {answer : RefreshAnswer} : Turns s i answer s.phase
  | started {answers : TickAnswers} (h : s.phase = .idle) (tick : Tick S)
      (htick : tick = ⟨answers, s.evidenceRepos, s.cache⟩) :
      Turns s (.start answers) none (.recording tick tick.rosters 1)
  | recorded {fates : Fates} {tick : Tick S} {roster : TeamRoster} {rest : List TeamRoster}
      {attempt : ℕ} (h : s.phase = .recording tick (roster :: rest) attempt) :
      Turns s (.advance fates) (some (.ok ())) (.recording tick rest 1)
  | omitted {fates : Fates} {tick : Tick S} {entry : String × TeamRoster}
      {rest : List (String × TeamRoster)} {attempt : ℕ}
      (h : s.phase = .omitting tick (entry :: rest) attempt) :
      Turns s (.advance fates) (some (.ok ())) (.omitting tick rest 1)
  | recordAgain {fates : Fates} {e : Stop PersistenceError} {tick : Tick S}
      {rosters : List TeamRoster} {attempt : ℕ} (h : s.phase = .recording tick rosters attempt) :
      Turns s (.advance fates) (some (.error e)) (.recording tick rosters (attempt + 1))
  | omitAgain {fates : Fates} {e : Stop PersistenceError} {tick : Tick S}
      {stale : List (String × TeamRoster)} {attempt : ℕ}
      (h : s.phase = .omitting tick stale attempt) :
      Turns s (.advance fates) (some (.error e)) (.omitting tick stale (attempt + 1))
  | failed {fates : Fates} {e : Stop PersistenceError} :
      Turns s (.advance fates) (some (.error e)) .idle
  | recordedAll {fates : Fates} {tick : Tick S} {attempt : ℕ}
      (h : s.phase = .recording tick [] attempt)
      (hauthorized : tick.discovery.authorizesOmissionDetach = true) :
      Turns s (.advance fates) none (.omitting tick (tick.stale s.app.projectionState.value) 1)
  | finished {fates : Fates} {tick : Tick S} {attempt : ℕ}
      (h : s.phase = .recording tick [] attempt ∨ s.phase = .omitting tick [] attempt) :
      Turns s (.advance fates) none .idle

section Step

variable {R : Runtime} {S : Source} (s : Refresh S)

theorem app_step (i : RefreshInput) :
    ((machine R S).step s i).2.app =
      match s.writeOf i with
      | some write => ((App.machine R).step s.app write).2
      | none => s.app := by
  cases i with
  | start answers =>
    simp only [machine, Refresh.start, Refresh.writeOf]
    split
    · split <;> rfl
    · rfl
  | other write fates => rfl
  | advance fates =>
    simp only [machine, Refresh.writeOf]
    cases s.teamWrite <;> rfl

theorem cache_step {i : RefreshInput} (h : ∀ answers, i ≠ .start answers) :
    ((machine R S).step s i).2.cache = s.cache := by
  cases i with
  | start answers => exact absurd rfl (h answers)
  | other write fates => rfl
  | advance fates =>
    simp only [machine]
    cases s.teamWrite <;> rfl

theorem attempted_cases (attempt : ℕ) (answer : Except (Stop PersistenceError) Unit) :
    attempted attempt answer = .done ∧ answer = .ok () ∨
      (attempted attempt answer = .again ∨ attempted attempt answer = .failed) ∧
        ∃ e, answer = .error e := by
  cases answer with
  | ok u => exact .inl ⟨rfl, rfl⟩
  | error e =>
    right
    cases h : attempted attempt (.error e) with
    | done => cases attempted_eq_done h
    | again => exact ⟨.inl rfl, e, rfl⟩
    | failed => exact ⟨.inr rfl, e, rfl⟩

theorem afterAttempt_turns (fates : Fates) (answer : Except (Stop PersistenceError) Unit) :
    Turns s (.advance fates) (some answer) (s.afterAttempt answer) := by
  unfold Refresh.afterAttempt
  split
  · next tick roster rest attempt hphase =>
    rcases attempted_cases attempt answer with ⟨h, rfl⟩ | ⟨h | h, e, rfl⟩
    · rw [h]
      exact .recorded hphase
    · rw [h]
      exact .recordAgain hphase
    · rw [h]
      exact .failed
  · next tick entry rest attempt hphase =>
    rcases attempted_cases attempt answer with ⟨h, rfl⟩ | ⟨h | h, e, rfl⟩
    · rw [h]
      exact .omitted hphase
    · rw [h]
      exact .omitAgain hphase
    · rw [h]
      exact .failed
  · exact .same

theorem finish_turns (fates : Fates) : Turns s (.advance fates) none s.finish := by
  unfold Refresh.finish
  split
  · next tick attempt hphase =>
    split
    · exact .finished (.inl hphase)
    · next hguard =>
      simp only [Bool.or_eq_true, not_or, Bool.not_eq_true', Bool.not_eq_false] at hguard
      exact .recordedAll hphase hguard.1
  · next tick attempt hphase => exact .finished (.inr hphase)
  · exact .same

theorem turns_step (i : RefreshInput) :
    Turns s i ((machine R S).step s i).1 ((machine R S).step s i).2.phase := by
  cases i with
  | start answers =>
    simp only [machine, Refresh.start]
    split
    · next h =>
      split
      · exact .same
      · exact .started h _ rfl
    · exact .same
  | other write fates => exact .same
  | advance fates =>
    simp only [machine]
    cases s.teamWrite with
    | none => exact finish_turns s fates
    | some write => exact afterAttempt_turns s fates _

end Step

end GhReport.Teams
