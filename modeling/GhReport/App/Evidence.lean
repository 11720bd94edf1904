import GhReport.App.Admission
import GhReport.Projection.Slots

/-! # Evidence under a key

A write moves the evidence of its own key only: a record keeps or replaces it, a
removal and a deletion take it away. Evidence is stored under the inventory key
of its repository as long as it is recorded under it.
-/

namespace GhReport.App

open Domain Event Projection EvidenceProjection Upsert

/-! ## Moves -/

/-- How an operation that was made moves the evidence of the key `k`. -/
def WriteOp.Moves (k : String) (before after : Option Domain.RepositoryEvidence) : WriteOp → Prop
  | .recordRepo key evidence _ _ =>
    ∃ recorded : Domain.RepositoryEvidence,
      recorded.repository.inventoryKey = evidence.repository.inventoryKey ∧
        after = if key = k then keep RepositoryEvidence.isComplete before recorded else before
  | .removeRepo key _ _ | .markRepoDeleted key _ _ => after = if key = k then none else before
  | .recordOrg _ | .recordTeam .. | .detachTeam .. => after = before

variable {R : Runtime} {p : EvidenceProjection}

theorem Repository.inventoryKey_tryFrom {C : Calendar} {r : Domain.Repository}
    {native : Event.Repository} (h : Event.Repository.tryFrom C r = .ok native) :
    native.inventoryKey.text = r.inventoryKey := by
  unfold Event.Repository.tryFrom at h
  obtain ⟨_, _, h⟩ := Except.bind_eq_ok_iff.mp h
  obtain ⟨_, _, h⟩ := Except.bind_eq_ok_iff.mp h
  obtain ⟨_, _, h⟩ := Except.bind_eq_ok_iff.mp h
  obtain ⟨_, _, h⟩ := Except.bind_eq_ok_iff.mp h
  obtain ⟨_, _, h⟩ := Except.bind_eq_ok_iff.mp h
  obtain ⟨inventoryKey, hkey, h⟩ := Except.bind_eq_ok_iff.mp h
  obtain ⟨_, _, h⟩ := Except.bind_eq_ok_iff.mp h
  obtain ⟨_, _, h⟩ := Except.bind_eq_ok_iff.mp h
  obtain ⟨_, _, h⟩ := Except.bind_eq_ok_iff.mp h
  obtain ⟨_, _, h⟩ := Except.bind_eq_ok_iff.mp h
  obtain ⟨_, _, h⟩ := Except.bind_eq_ok_iff.mp h
  obtain ⟨_, _, h⟩ := Except.bind_eq_ok_iff.mp h
  obtain ⟨_, _, h⟩ := Except.bind_eq_ok_iff.mp h
  cases h
  have hnonEmpty : nonEmpty Limits.maxDomainKey "repository.inventory_key" r.inventoryKey =
      .ok inventoryKey := by
    rw [nonEmpty, hkey]
    rfl
  exact nonEmpty_ok hnonEmpty

/-- The conversion of evidence keeps the inventory key of its repository. -/
theorem RepositoryEvidence.inventoryKey_tryFrom {C : Calendar}
    {evidence : Domain.RepositoryEvidence}
    {native : Event.RepositoryEvidence}
    (h : Event.RepositoryEvidence.tryFrom C evidence = .ok native) :
    (native.toDomain C).repository.inventoryKey = evidence.repository.inventoryKey := by
  unfold Event.RepositoryEvidence.tryFrom at h
  obtain ⟨repository, hrepository, h⟩ := Except.bind_eq_ok_iff.mp h
  obtain ⟨_, _, h⟩ := Except.bind_eq_ok_iff.mp h
  obtain ⟨_, _, h⟩ := Except.bind_eq_ok_iff.mp h
  cases h
  exact Repository.inventoryKey_tryFrom hrepository

theorem evidence_foldNativeEvent (C : Calendar) (p : EvidenceProjection) (detached : Bool)
    (event : DomainEvent) (k : String) :
    (foldNativeEvent C p detached event).repositories[k]? =
      match event with
      | .repositoryStateCaptured key _ _ evidence =>
        ((p.repoSlot k).step k (.repositoryStateCaptured detached key.text
          (evidence.map fun e => e.toDomain C))).evidence
      | .repositoryDeleted key _ _ => if key.text = k then none else p.repositories[k]?
      | .orgStateCaptured _ | .teamStateCaptured _ => p.repositories[k]? := by
  have hslot : ∀ (p : EvidenceProjection) e,
      (p.apply e).repositories[k]? = ((p.repoSlot k).step k e).evidence := by
    intro p e
    rw [← repoSlot_apply]
    rfl
  cases event with
  | repositoryStateCaptured key _ _ evidence => exact hslot p _
  | repositoryDeleted key repoName detectedAt =>
    rw [foldNativeEvent, hslot, RepoSlot.step]
    by_cases hk : key.text = k
    · simp [hk]
    · simp [hk, repoSlot]
  | orgStateCaptured org =>
    simp only [foldNativeEvent]
    split
    · rfl
    · rw [foldOrgEvent, hslot]
      rfl
  | teamStateCaptured team =>
    rw [foldNativeEvent, hslot]
    rfl

/-- A write that was made moves the evidence of a key as its operation says. -/
theorem moves_fold {op : WriteOp} {w : Written} (hw : op.written R = .ok w)
    (p : EvidenceProjection) (k : String) :
    op.Moves k p.repositories[k]? (op.fold R p).repositories[k]? := by
  have hfold : op.fold R p = foldNativeEvent R.calendar p w.detached w.event := by
    simp only [WriteOp.fold, hw]
  rw [hfold, evidence_foldNativeEvent]
  cases op with
  | recordRepo key evidence repoName timestamp =>
    obtain ⟨native, hnative, hw⟩ := Except.bind_eq_ok_iff.mp hw
    obtain ⟨event, hevent, hw⟩ := Except.bind_eq_ok_iff.mp hw
    obtain ⟨k', n, t, rfl, hk'⟩ := repoEvent_ok hevent
    cases hw
    rw [Except.mapError_eq_ok_iff] at hnative
    refine ⟨native.toDomain R.calendar, RepositoryEvidence.inventoryKey_tryFrom hnative, ?_⟩
    simp only [RepoSlot.step, hk', Option.map_some, Bool.false_eq_true, if_false]
    by_cases hk : key = k
    · rw [if_neg (not_not_intro hk), if_pos hk]
      split
      · next hguard => exact (keep_of_guard _ hguard).symm
      · next hguard => exact (keep_of_not_guard _ (Bool.eq_false_iff.mpr hguard)).symm
    · rw [if_pos hk, if_neg hk]
      rfl
  | removeRepo key repoName timestamp =>
    obtain ⟨event, hevent, hw⟩ := Except.bind_eq_ok_iff.mp hw
    obtain ⟨k', n, t, rfl, hk'⟩ := repoEvent_ok hevent
    cases hw
    simp only [RepoSlot.step, hk', WriteOp.Moves, if_true]
    by_cases hk : key = k
    · rw [if_neg (not_not_intro hk), if_pos hk]
    · rw [if_pos hk, if_neg hk]
      rfl
  | markRepoDeleted key repoName detectedAt =>
    obtain ⟨event, hevent, hw⟩ := Except.bind_eq_ok_iff.mp hw
    obtain ⟨k', n, t, rfl, hk'⟩ := deletedRepoEvent_ok hevent
    cases hw
    simp only [WriteOp.Moves, hk']
  | recordOrg snapshot =>
    obtain ⟨event, _, hw⟩ := Except.bind_eq_ok_iff.mp hw
    cases hw
    rfl
  | recordTeam org roster fetchedAt status =>
    obtain ⟨event, _, hw⟩ := Except.bind_eq_ok_iff.mp hw
    cases hw
    rfl
  | detachTeam org roster fetchedAt status =>
    obtain ⟨event, _, hw⟩ := Except.bind_eq_ok_iff.mp hw
    cases hw
    rfl

/-! ## Steps -/

/-- A step that answers Ok moves the evidence of a key; any other leaves the projection alone. -/
theorem moves_step (s : AppState) (i : WriteOp × Fates) (k : String) :
    ((machine R).step s i).1 = .ok () ∧
        i.1.Moves k s.projectionState.value.repositories[k]?
          ((machine R).step s i).2.projectionState.value.repositories[k]? ∨
      ((machine R).step s i).1 ≠ .ok () ∧
        ((machine R).step s i).2.projectionState.value = s.projectionState.value := by
  rcases fold_step (R := R) s i with ⟨hok, ⟨w, hw⟩, hfold⟩ | ⟨hnot, hsame⟩
  · rw [hfold]
    exact .inl ⟨hok, moves_fold hw _ k⟩
  · exact .inr ⟨hnot, hsame⟩

namespace WriteOp

variable {k : String} {before after : Option Domain.RepositoryEvidence} {op : WriteOp}

/-- The operation takes the evidence of the key away. -/
def Removes (k : String) : WriteOp → Prop
  | .removeRepo key _ _ | .markRepoDeleted key _ _ => key = k
  | _ => False

theorem Moves.keeps (h : op.Moves k before after) (hop : ¬ op.Removes k) (hbefore : before ≠ none) :
    after ≠ none := by
  cases op with
  | recordRepo key evidence repoName timestamp =>
    obtain ⟨recorded, -, rfl⟩ := h
    split
    · exact keep_ne_none _ _
    · exact hbefore
  | removeRepo key repoName timestamp | markRepoDeleted key repoName timestamp =>
    have h : after = if key = k then none else before := h
    have hne : key ≠ k := hop
    rw [h, if_neg hne]
    exact hbefore
  | recordOrg | recordTeam | detachTeam =>
    have h : after = before := h
    rw [h]
    exact hbefore

theorem Moves.records {evidence : Domain.RepositoryEvidence} {repoName timestamp : String}
    (h : Moves k before after (.recordRepo k evidence repoName timestamp)) : after ≠ none := by
  obtain ⟨recorded, -, rfl⟩ := h
  rw [if_pos rfl]
  exact keep_ne_none _ _

/-- Evidence under a key was there before, or was just recorded under it. -/
theorem Moves.origin {e : Domain.RepositoryEvidence} (h : op.Moves k before after)
    (hafter : after = some e) :
    before = some e ∨ ∃ evidence repoName timestamp,
      op = .recordRepo k evidence repoName timestamp ∧
        e.repository.inventoryKey = evidence.repository.inventoryKey := by
  cases op with
  | recordRepo key evidence repoName timestamp =>
    obtain ⟨recorded, hkey, rfl⟩ := h
    split at hafter
    · next hk =>
      subst hk
      rcases keep_eq_some _ hafter with hbefore | rfl
      · exact .inl hbefore
      · exact .inr ⟨evidence, repoName, timestamp, rfl, hkey⟩
    · exact .inl hafter
  | removeRepo key repoName timestamp | markRepoDeleted key repoName timestamp =>
    have h : after = if key = k then none else before := h
    rw [h] at hafter
    split at hafter
    · cases hafter
    · exact .inl hafter
  | recordOrg | recordTeam | detachTeam =>
    have h : after = before := h
    exact .inl (h ▸ hafter)

end WriteOp

/-! ## Keys -/

/-- Evidence is stored under the inventory key of its repository. -/
def Keyed (p : EvidenceProjection) : Prop :=
  ∀ k (e : Domain.RepositoryEvidence), p.repositories[k]? = some e → e.repository.inventoryKey = k

theorem keyed_default : Keyed .default := by
  intro k e h
  simp [EvidenceProjection.default] at h

/-- The operation records evidence under its own inventory key, if it records evidence. -/
def WriteOp.KeyedRecord : WriteOp → Prop
  | .recordRepo key evidence _ _ => evidence.repository.inventoryKey = key
  | _ => True

theorem Keyed.step {s : AppState} (h : Keyed s.projectionState.value) {i : WriteOp × Fates}
    (hi : i.1.KeyedRecord) : Keyed ((machine R).step s i).2.projectionState.value := by
  intro k e he
  rcases moves_step s i k with ⟨-, hmoves⟩ | ⟨-, hsame⟩
  · rcases hmoves.origin he with hbefore | ⟨evidence, repoName, timestamp, hop, hkey⟩
    · exact h k e hbefore
    · rw [hop] at hi
      exact hkey.trans hi
  · rw [hsame] at he
    exact h k e he

end GhReport.App
