import GhReport.Projection.Apply

/-! # The projection as independent slots

A key has one repository slot (its evidence and its deletion record) and one
team slot (its live and its ghost roster). An event changes the slots of its own
key only, so a fold over a log is a fold over each slot.
-/

namespace GhReport.Projection

open Domain Event Upsert

/-- What the projection holds for one repository key. -/
structure RepoSlot where
  evidence : Option Domain.RepositoryEvidence
  deleted : Option DeletedRepoRecord

/-- What the projection holds for one team key. -/
structure TeamSlot where
  roster : Option TeamRoster
  ghost : Option TeamRoster

namespace EvidenceProjection

def repoSlot (p : EvidenceProjection) (k : String) : RepoSlot :=
  ⟨p.repositories[k]?, p.deleted[k]?⟩

def teamSlot (p : EvidenceProjection) (k : String) : TeamSlot :=
  ⟨p.teamRosters[k]?, p.teamGhostRosters[k]?⟩

/-- Projections with the same slots and organisation state are equal. -/
theorem ext_slots {p q : EvidenceProjection} (hr : ∀ k, p.repoSlot k = q.repoSlot k)
    (ho : p.orgState = q.orgState) (ht : ∀ k, p.teamSlot k = q.teamSlot k) : p = q := by
  have hrepo : p.repositories = q.repositories :=
    KeyMap.ext fun k => (RepoSlot.mk.inj (hr k)).1
  have hdel : p.deleted = q.deleted := KeyMap.ext fun k => (RepoSlot.mk.inj (hr k)).2
  have hros : p.teamRosters = q.teamRosters :=
    KeyMap.ext fun k => (TeamSlot.mk.inj (ht k)).1
  have hghost : p.teamGhostRosters = q.teamGhostRosters :=
    KeyMap.ext fun k => (TeamSlot.mk.inj (ht k)).2
  cases p; cases q
  simp only at hrepo hdel hros hghost ho
  rw [hrepo, hdel, hros, hghost, ho]

end EvidenceProjection

/-- One event on the repository slot of `k`. -/
def RepoSlot.step (k : String) (s : RepoSlot) : EvidenceProjectionEvent → RepoSlot
  | .repositoryStateCaptured detached key evidence =>
    if key ≠ k then s
    else if detached then { s with evidence := none }
    else match evidence with
      | none => s
      | some v =>
        if !s.evidence.any RepositoryEvidence.isComplete || v.isComplete then ⟨some v, none⟩
        else s
  | .repositoryDeleted key repoName detectedAt =>
    if key ≠ k then s else ⟨none, some ⟨repoName, detectedAt⟩⟩
  | _ => s

/-- The ghost a detach leaves behind: the roster it carried, if that says deleted. -/
def ghostOf (roster : Option TeamRoster) : Option TeamRoster :=
  roster.filter fun r => r.status = .deleted

/-- One event on the team slot of `k`. -/
def TeamSlot.step (k : String) (s : TeamSlot) : EvidenceProjectionEvent → TeamSlot
  | .teamStateCaptured detached key roster =>
    if key ≠ k then s
    else if detached then ⟨none, ghostOf roster⟩
    else match roster with
      | none => s
      | some r => ⟨keep rosterComplete s.roster r, none⟩
  | _ => s

/-- One event on the organisation state. -/
def orgStep (s : Option OrgReadModel) : EvidenceProjectionEvent → Option OrgReadModel
  | .orgStateCaptured snapshot => keep OrgReadModel.isComplete s (.ofSnapshot snapshot)
  | _ => s

namespace EvidenceProjection

theorem repoSlot_apply (p : EvidenceProjection) (e : EvidenceProjectionEvent) (k : String) :
    (p.apply e).repoSlot k = (p.repoSlot k).step k e := by
  cases e with
  | repositoryStateCaptured detached key evidence =>
    cases detached with
    | true =>
      rcases eq_or_ne key k with rfl | hk
      · simp [apply, repoSlot, RepoSlot.step]
      · simp [apply, repoSlot, RepoSlot.step, hk, KeyMap.getElem?_erase_ne _ hk]
    | false =>
      cases evidence with
      | none => simp [apply, RepoSlot.step]
      | some v =>
        cases hc : !p.repositories[key]?.any RepositoryEvidence.isComplete || v.isComplete with
        | true =>
          rcases eq_or_ne key k with rfl | hk
          · simp only [apply, repoSlot, RepoSlot.step, hc]
            simp
          · simp only [apply, repoSlot, RepoSlot.step, hc]
            simp [hk, KeyMap.getElem?_erase_ne _ hk, KeyMap.getElem?_insert_ne _ hk]
        | false =>
          rcases eq_or_ne key k with rfl | hk
          · simp only [apply, repoSlot, RepoSlot.step, hc]
            simp
          · simp only [apply, repoSlot, RepoSlot.step, hc]
            simp [hk]
  | repositoryDeleted key repoName detectedAt =>
    rcases eq_or_ne key k with rfl | hk
    · simp [apply, repoSlot, RepoSlot.step]
    · simp [apply, repoSlot, RepoSlot.step, hk, KeyMap.getElem?_insert_ne _ hk,
        KeyMap.getElem?_erase_ne _ hk]
  | orgStateCaptured snapshot =>
    simp only [apply, applyOrgState, RepoSlot.step]
    split <;> rfl
  | teamStateCaptured detached key roster =>
    simp only [apply, RepoSlot.step]
    split
    · split
      · split <;> rfl
      · rfl
    · split
      · rfl
      · split <;> rfl

theorem teamSlot_apply (p : EvidenceProjection) (e : EvidenceProjectionEvent) (k : String) :
    (p.apply e).teamSlot k = (p.teamSlot k).step k e := by
  cases e with
  | repositoryStateCaptured detached key evidence =>
    simp only [apply, TeamSlot.step]
    split
    · rfl
    · split
      · rfl
      · split <;> rfl
  | repositoryDeleted key repoName detectedAt => rfl
  | orgStateCaptured snapshot =>
    simp only [apply, applyOrgState, TeamSlot.step]
    split <;> rfl
  | teamStateCaptured detached key roster =>
    cases detached with
    | true =>
      cases roster with
      | none =>
        rcases eq_or_ne key k with rfl | hk
        · simp [apply, teamSlot, TeamSlot.step, ghostOf]
        · simp [apply, teamSlot, TeamSlot.step, hk, KeyMap.getElem?_erase_ne _ hk]
      | some r =>
        by_cases hd : r.status = .deleted
        · rcases eq_or_ne key k with rfl | hk
          · simp [apply, teamSlot, TeamSlot.step, ghostOf, Option.filter, hd]
          · simp [apply, teamSlot, TeamSlot.step, hd, hk, KeyMap.getElem?_erase_ne _ hk,
              KeyMap.getElem?_insert_ne _ hk]
        · rcases eq_or_ne key k with rfl | hk
          · simp [apply, teamSlot, TeamSlot.step, ghostOf, Option.filter, hd]
          · simp [apply, teamSlot, TeamSlot.step, hd, hk, KeyMap.getElem?_erase_ne _ hk]
    | false =>
      cases roster with
      | none => simp [apply, TeamSlot.step]
      | some r =>
        cases hc : !p.teamRosters[key]?.any rosterComplete || rosterComplete r with
        | true =>
          rcases eq_or_ne key k with rfl | hk
          · have hkeep : keep rosterComplete p.teamRosters[key]? r = some r :=
              keep_of_guard rosterComplete hc
            simp only [apply, teamSlot, TeamSlot.step, hc, hkeep]
            simp
          · simp only [apply, teamSlot, TeamSlot.step, hc]
            simp [hk, KeyMap.getElem?_erase_ne _ hk, KeyMap.getElem?_insert_ne _ hk]
        | false =>
          rcases eq_or_ne key k with rfl | hk
          · have hkeep : keep rosterComplete p.teamRosters[key]? r = p.teamRosters[key]? :=
              keep_of_not_guard rosterComplete hc
            simp only [apply, teamSlot, TeamSlot.step, hc, hkeep]
            simp
          · simp only [apply, teamSlot, TeamSlot.step, hc]
            simp [hk, KeyMap.getElem?_erase_ne _ hk]

theorem orgState_apply (p : EvidenceProjection) (e : EvidenceProjectionEvent) :
    (p.apply e).orgState = orgStep p.orgState e := by
  cases e with
  | orgStateCaptured snapshot =>
    simp only [apply, applyOrgState, orgStep, keep]
    cases p.orgState.any OrgReadModel.isComplete <;>
      cases (OrgReadModel.ofSnapshot snapshot).isComplete <;> rfl
  | repositoryStateCaptured detached key evidence =>
    simp only [apply, orgStep]
    split
    · rfl
    · split
      · rfl
      · split <;> rfl
  | repositoryDeleted key repoName detectedAt => rfl
  | teamStateCaptured detached key roster =>
    simp only [apply, orgStep]
    split
    · split
      · split <;> rfl
      · rfl
    · split
      · rfl
      · split <;> rfl

end EvidenceProjection

/-! ## Folds over the dedicated logs -/

section Dedicated

open EvidenceProjection

/-- Folding organisation events changes the organisation state only. -/
theorem foldl_foldOrgEvent (events : List OrgStateCaptured) (p : EvidenceProjection) :
    (events.foldl foldOrgEvent p).orgState =
        keepAll OrgReadModel.isComplete p.orgState
          (events.map fun event => .ofSnapshot event.toDomain) ∧
      (∀ k, (events.foldl foldOrgEvent p).repoSlot k = p.repoSlot k) ∧
      ∀ k, (events.foldl foldOrgEvent p).teamSlot k = p.teamSlot k := by
  induction events generalizing p with
  | nil => exact ⟨rfl, fun _ => rfl, fun _ => rfl⟩
  | cons event events ih =>
    obtain ⟨ho, hr, ht⟩ := ih (foldOrgEvent p event)
    refine ⟨?_, fun k => ?_, fun k => ?_⟩
    · rw [List.foldl_cons, ho, foldOrgEvent, orgState_apply]
      rfl
    · rw [List.foldl_cons, hr, foldOrgEvent, repoSlot_apply]
      rfl
    · rw [List.foldl_cons, ht, foldOrgEvent, teamSlot_apply]
      rfl

/-- The team slot after records of its key: the rosters upserted, and no ghost left. -/
def TeamSlot.record (slot : TeamSlot) (rosters : List TeamRoster) : TeamSlot :=
  rosters.foldl (fun slot r => ⟨keep rosterComplete slot.roster r, none⟩) slot

theorem TeamSlot.record_roster (slot : TeamSlot) (rosters : List TeamRoster) :
    (TeamSlot.record slot rosters).roster = keepAll rosterComplete slot.roster rosters := by
  induction rosters generalizing slot with
  | nil => rfl
  | cons r rosters ih => exact ih _

theorem TeamSlot.record_ghost (slot : TeamSlot) {rosters : List TeamRoster} (h : rosters ≠ []) :
    (TeamSlot.record slot rosters).ghost = none := by
  cases rosters with
  | nil => exact absurd rfl h
  | cons r rosters =>
    change (TeamSlot.record ⟨_, none⟩ rosters).ghost = none
    generalize keep rosterComplete slot.roster r = roster
    clear h
    induction rosters generalizing roster with
    | nil => rfl
    | cons r' rosters ih => exact ih _

/-- Folding team records changes team slots only, each by the records of its own key. -/
theorem foldl_foldTeamEvent (events : List TeamStateCaptured) (p : EvidenceProjection) :
    (events.foldl foldTeamEvent p).orgState = p.orgState ∧
      (∀ k, (events.foldl foldTeamEvent p).repoSlot k = p.repoSlot k) ∧
      ∀ k, (events.foldl foldTeamEvent p).teamSlot k = TeamSlot.record (p.teamSlot k)
        (events.filterMap fun event => if event.key = k then some event.toDomain else none) := by
  induction events generalizing p with
  | nil => exact ⟨rfl, fun _ => rfl, fun _ => rfl⟩
  | cons event events ih =>
    obtain ⟨ho, hr, ht⟩ := ih (foldTeamEvent p event)
    refine ⟨?_, fun k => ?_, fun k => ?_⟩
    · rw [List.foldl_cons, ho, foldTeamEvent, orgState_apply]
      rfl
    · rw [List.foldl_cons, hr, foldTeamEvent, repoSlot_apply]
      rfl
    · rw [List.foldl_cons, ht, foldTeamEvent, teamSlot_apply, List.filterMap_cons]
      by_cases hk : event.key = k
      · simp only [TeamSlot.step, teamProjectionEvent, hk, ne_eq, not_true_eq_false, if_false,
          if_true]
        rfl
      · simp only [TeamSlot.step, teamProjectionEvent, hk, ne_eq, not_false_eq_true, if_true,
          if_false]

end Dedicated

end GhReport.Projection
