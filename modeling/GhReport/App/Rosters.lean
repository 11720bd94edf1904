import GhReport.App.Admission
import GhReport.App.Restart

/-! # Rosters under a key

A write moves the team slot of its own key only: a record keeps or replaces the
roster and clears the ghost, a detach takes the roster away.
-/

namespace GhReport.App

open Domain Event Projection EvidenceProjection Upsert

/-! ## Events -/

theorem teamMemberEvent_ok {member : TeamMember} {event : TeamMemberEvent}
    (h : teamMemberEvent member = .ok event) :
    (⟨event.login.text, event.role, event.inOrg⟩ : TeamMember) = member := by
  unfold teamMemberEvent at h
  obtain ⟨login, hlogin, h⟩ := Except.bind_eq_ok_iff.mp h
  cases h
  rw [nonEmpty_ok hlogin]

theorem mapM_teamMemberEvent_ok {members : List TeamMember} {events : List TeamMemberEvent}
    (h : members.mapM teamMemberEvent = .ok events) :
    (events.map fun e => (⟨e.login.text, e.role, e.inOrg⟩ : TeamMember)) = members := by
  induction members generalizing events with
  | nil =>
    cases h
    rfl
  | cons member members ih =>
    rw [List.mapM_cons] at h
    obtain ⟨event, hevent, h⟩ := Except.bind_eq_ok_iff.mp h
    obtain ⟨rest, hrest, h⟩ := Except.bind_eq_ok_iff.mp h
    cases h
    rw [List.map_cons, teamMemberEvent_ok hevent, ih hrest]

/-- The event of a roster is of its team, and keeps its status and its members. -/
structure Carries (org : String) (roster : TeamRoster) (event : TeamStateCaptured) : Prop where
  key : teamDomainKey org roster.teamSlug = .ok event.key
  teamSlug : event.toDomain.teamSlug = roster.teamSlug
  status : event.toDomain.status = roster.status
  members : event.toDomain.members = roster.members

theorem teamStateEvent_ok {org : String} {roster : TeamRoster} {fetchedAt : String}
    {status : OrgMembershipFetchStatus} {event : TeamStateCaptured}
    (h : teamStateEvent org roster fetchedAt status = .ok event) : Carries org roster event := by
  unfold teamStateEvent at h
  obtain ⟨memberEvents, hmembers, h⟩ := Except.bind_eq_ok_iff.mp h
  obtain ⟨bounded, hbounded, h⟩ := Except.bind_eq_ok_iff.mp h
  obtain ⟨org', horg, h⟩ := Except.bind_eq_ok_iff.mp h
  obtain ⟨teamSlug, hslug, h⟩ := Except.bind_eq_ok_iff.mp h
  obtain ⟨fetchedAt', _, h⟩ := Except.bind_eq_ok_iff.mp h
  cases h
  have hitems : bounded.items = memberEvents := by
    unfold boundedMembers at hbounded
    split at hbounded
    · next v hv =>
      cases hbounded
      exact Pardosa.EventVec.items_of_new hv
    · cases hbounded
  constructor
  · rw [← nonEmpty_ok horg, ← nonEmpty_ok hslug]
    exact TeamStateCaptured.teamDomainKey_eq
      ⟨org', teamSlug, bounded, ⟨status⟩, fetchedAt', roster.status⟩
  · exact nonEmpty_ok hslug
  · rfl
  · rw [← mapM_teamMemberEvent_ok hmembers, ← hitems]
    rfl

/-! ## Moves -/

/-- How an operation that was made moves the team slot of the key `k`. -/
def WriteOp.TeamMoves (k : String) (before after : TeamSlot) : WriteOp → Prop
  | .recordTeam org roster _ _ => ∃ event, Carries org roster event ∧
      after = if event.key = k then ⟨keep rosterComplete before.roster event.toDomain, none⟩
        else before
  | .detachTeam org roster _ _ => ∃ event, Carries org (detachTombstoneRoster roster) event ∧
      after = if event.key = k then ⟨none, ghostOf (some event.toDomain)⟩ else before
  | _ => after = before

variable {R : Runtime}

/-- A write that was made moves the team slot of a key as its operation says. -/
theorem teamMoves_fold {op : WriteOp} {w : Written} (hw : op.written R = .ok w)
    (p : EvidenceProjection) (k : String) :
    op.TeamMoves k (p.teamSlot k) ((op.fold R p).teamSlot k) := by
  have hfold : op.fold R p = foldNativeEvent R.calendar p w.detached w.event := by
    simp only [WriteOp.fold, hw]
  rw [hfold, teamSlot_foldNativeEvent]
  cases op with
  | recordRepo key evidence repoName timestamp =>
    obtain ⟨native, _, hw⟩ := Except.bind_eq_ok_iff.mp hw
    obtain ⟨event, hevent, hw⟩ := Except.bind_eq_ok_iff.mp hw
    obtain ⟨k', n, t, rfl, _⟩ := repoEvent_ok hevent
    cases hw
    rfl
  | removeRepo key repoName timestamp =>
    obtain ⟨event, hevent, hw⟩ := Except.bind_eq_ok_iff.mp hw
    obtain ⟨k', n, t, rfl, _⟩ := repoEvent_ok hevent
    cases hw
    rfl
  | markRepoDeleted key repoName detectedAt =>
    obtain ⟨event, hevent, hw⟩ := Except.bind_eq_ok_iff.mp hw
    obtain ⟨k', n, t, rfl, _⟩ := deletedRepoEvent_ok hevent
    cases hw
    rfl
  | recordOrg snapshot =>
    obtain ⟨event, _, hw⟩ := Except.bind_eq_ok_iff.mp hw
    cases hw
    rfl
  | recordTeam org roster fetchedAt status =>
    obtain ⟨event, hevent, hw⟩ := Except.bind_eq_ok_iff.mp hw
    cases hw
    exact ⟨event, teamStateEvent_ok hevent, step_teamProjectionEvent _ k _ event⟩
  | detachTeam org roster fetchedAt status =>
    obtain ⟨event, hevent, hw⟩ := Except.bind_eq_ok_iff.mp hw
    cases hw
    exact ⟨event, teamStateEvent_ok hevent, step_teamProjectionEvent _ k _ event⟩

/-- A step that answers Ok moves the slot of a team; any other leaves the projection alone. -/
theorem teamMoves_step (s : AppState) (i : WriteOp × Fates) (k : String) :
    ((machine R).step s i).1 = .ok () ∧
        i.1.TeamMoves k (s.projectionState.value.teamSlot k)
          (((machine R).step s i).2.projectionState.value.teamSlot k) ∨
      ((machine R).step s i).1 ≠ .ok () ∧
        ((machine R).step s i).2.projectionState.value = s.projectionState.value := by
  rcases fold_step (R := R) s i with ⟨hok, ⟨w, hw⟩, hfold⟩ | ⟨hnot, hsame⟩
  · rw [hfold]
    exact .inl ⟨hok, teamMoves_fold hw _ k⟩
  · exact .inr ⟨hnot, hsame⟩

/-! ## Keys -/

/-- Every roster is stored under the key of its team in the organisation. -/
def TeamsKeyed (org : String) (p : EvidenceProjection) : Prop :=
  ∀ k (r : TeamRoster), p.teamRosters[k]? = some r → teamDomainKey org r.teamSlug = .ok k

theorem teamsKeyed_default (org : String) : TeamsKeyed org .default := by
  intro k r h
  simp [EvidenceProjection.default] at h

/-- The operation writes a team of the organisation, if it writes a team. -/
def WriteOp.OfOrg (org : String) : WriteOp → Prop
  | .recordTeam org' _ _ _ | .detachTeam org' _ _ _ => org' = org
  | _ => True

theorem TeamsKeyed.step {org : String} {s : AppState} (h : TeamsKeyed org s.projectionState.value)
    {i : WriteOp × Fates} (hi : i.1.OfOrg org) :
    TeamsKeyed org ((machine R).step s i).2.projectionState.value := by
  intro k r hr
  rcases teamMoves_step (R := R) s i k with ⟨-, hmoves⟩ | ⟨-, hsame⟩
  · obtain ⟨op, fates⟩ := i
    have hafter : (((machine R).step s (op, fates)).2.projectionState.value.teamSlot k).roster =
        some r := hr
    cases op with
    | recordTeam org' roster fetchedAt status =>
      obtain ⟨event, hcarries, heq⟩ := hmoves
      obtain rfl : org' = org := hi
      rw [heq] at hafter
      split at hafter
      · next hk =>
        rcases keep_eq_some _ hafter with hold | rfl
        · exact h k r hold
        · rw [hcarries.teamSlug, ← hk]
          exact hcarries.key
      · exact h k r hafter
    | detachTeam org' roster fetchedAt status =>
      obtain ⟨event, -, heq⟩ := hmoves
      rw [heq] at hafter
      split at hafter
      · cases hafter
      · exact h k r hafter
    | recordRepo | removeRepo | markRepoDeleted | recordOrg =>
      have heq : _ = _ := hmoves
      rw [heq] at hafter
      exact h k r hafter
  · rw [hsame] at hr
    exact h k r hr

end GhReport.App
