import GhReport.Library.Machine
import GhReport.Projection.Slots

/-! # Definite evidence

A capture replaces complete evidence only by complete evidence. Evidence is complete
when each check is a definite observation, but also when secret scanning alone is
unobservable because a permission is missing.
-/

namespace GhReport.Domain

/-- The result is not a definite observation. -/
def SecurityPolicyResult.isUnobservable : SecurityPolicyResult → Bool
  | unobservable .. => true
  | _ => false

def SecretScanningResult.isUnobservable : SecretScanningResult → Bool
  | unobservable .. => true
  | _ => false

def CodeownersResult.isUnobservable : CodeownersResult → Bool
  | unobservable .. => true
  | _ => false

/-- Secret scanning is unobservable, its metadata or its probe failing for want of a permission. -/
def SecretScanningResult.lacksPermission : SecretScanningResult → Bool
  | unobservable metadata probe _ =>
    MetadataUnavailable.permission metadata || UnobservableProbe.permission probe
  | _ => false

/-- The checks beside secret scanning are definite observations. -/
structure RepositoryChecks.OthersDefinite (checks : RepositoryChecks) : Prop where
  securityPolicy : checks.securityPolicy.isUnobservable = false
  dependabotSecurityUpdates : checks.dependabotSecurityUpdates.status ≠ .unknown
  branchProtection : checks.branchProtection.isObserved = true
  codeowners : checks.codeowners.isUnobservable = false

structure RepositoryChecks.Definite (checks : RepositoryChecks) : Prop
    extends checks.OthersDefinite where
  secretScanning : checks.secretScanning.isUnobservable = false

theorem SecurityPolicyResult.status_eq_unknown_iff {r : SecurityPolicyResult} :
    r.status = .unknown ↔ r.isUnobservable = true := by
  cases r <;> simp [status, isUnobservable]

theorem CodeownersResult.status_eq_unknown_iff {r : CodeownersResult} :
    r.status = .unknown ↔ r.isUnobservable = true := by
  cases r <;> simp [status, isUnobservable]

/-- Secret scanning counts as resolved when it is definite, and when a permission is missing. -/
theorem SecretScanningResult.status_ne_unknown_iff {r : SecretScanningResult} :
    r.status ≠ .unknown ↔ r.isUnobservable = false ∨ r.lacksPermission = true := by
  cases r with
  | enabled | disabled => simp [status, isUnobservable]
  | unobservable metadata probe timestamp =>
    cases h : MetadataUnavailable.permission metadata || UnobservableProbe.permission probe <;>
      simp [status, isUnobservable, lacksPermission, h]

theorem SecretScanningResult.not_lacksPermission {r : SecretScanningResult}
    (h : r.isUnobservable = false) : r.lacksPermission = false := by
  cases r with
  | enabled | disabled => rfl
  | unobservable => cases h

theorem RepositoryEvidence.isComplete_iff {e : RepositoryEvidence} :
    e.isComplete = true ↔ e.checks.OthersDefinite ∧
      (e.checks.secretScanning.isUnobservable = false ∨
        e.checks.secretScanning.lacksPermission = true) := by
  have hpolicy := @SecurityPolicyResult.status_eq_unknown_iff e.checks.securityPolicy
  have hcodeowners := @CodeownersResult.status_eq_unknown_iff e.checks.codeowners
  rw [← SecretScanningResult.status_ne_unknown_iff, RepositoryEvidence.isComplete]
  simp only [Bool.and_eq_true, bne_iff_ne, ne_eq, hpolicy, hcodeowners, Bool.not_eq_true]
  constructor
  · rintro ⟨⟨⟨⟨hpolicy, hsecret⟩, hdependabot⟩, hbranch⟩, hcodeowners⟩
    exact ⟨⟨hpolicy, hdependabot, hbranch, hcodeowners⟩, hsecret⟩
  · rintro ⟨⟨hpolicy, hdependabot, hbranch, hcodeowners⟩, hsecret⟩
    exact ⟨⟨⟨⟨hpolicy, hsecret⟩, hdependabot⟩, hbranch⟩, hcodeowners⟩

theorem RepositoryChecks.Definite.isComplete {e : RepositoryEvidence} (h : e.checks.Definite) :
    e.isComplete = true :=
  RepositoryEvidence.isComplete_iff.mpr ⟨h.toOthersDefinite, .inl h.secretScanning⟩

end GhReport.Domain

namespace GhReport.Projection

open Domain EvidenceProjection

/-! ## Captures -/

def projecting : Machine EvidenceProjection EvidenceProjectionEvent Unit where
  step p event := ((), p.apply event)

/-- A capture leaves definite evidence, or puts other definite evidence in its place. -/
def KeepsDefinite (p : EvidenceProjection) (event : EvidenceProjectionEvent) : Prop :=
  ∀ domainKey evidence, event = .repositoryStateCaptured false domainKey evidence →
    ∀ (k : String) stored, p.repositories[k]? = some stored → stored.checks.Definite →
      ∃ after, (p.apply event).repositories[k]? = some after ∧ after.checks.Definite

/-- Where definite evidence is stored, the captured secret scanning does not lack a permission. -/
def PermitsSecretScanning (p : EvidenceProjection) (event : EvidenceProjectionEvent) : Prop :=
  ∀ domainKey evidence stored, event = .repositoryStateCaptured false domainKey (some evidence) →
    p.repositories[domainKey]? = some stored → stored.checks.Definite →
      evidence.checks.OthersDefinite → evidence.checks.secretScanning.lacksPermission = false

theorem repositories_captured (p : EvidenceProjection) (domainKey k : String)
    (evidence : RepositoryEvidence) :
    (p.apply (.repositoryStateCaptured false domainKey (some evidence))).repositories[k]? =
      if domainKey = k then
        Upsert.keep RepositoryEvidence.isComplete p.repositories[k]? evidence
      else p.repositories[k]? := by
  have hslot := congrArg RepoSlot.evidence
    (repoSlot_apply p (.repositoryStateCaptured false domainKey (some evidence)) k)
  change (p.apply _).repositories[k]? = _ at hslot
  rw [hslot]
  simp only [RepoSlot.step, ne_eq, ite_not, Bool.false_eq_true, if_false]
  split
  · split
    · next hguard => exact (Upsert.keep_of_guard _ hguard).symm
    · next hguard => exact (Upsert.keep_of_not_guard _ (Bool.eq_false_iff.mpr hguard)).symm
  · rfl

/-- A capture puts indefinite evidence over definite only for want of a permission. -/
theorem keepsDefinite_iff (p : EvidenceProjection) (event : EvidenceProjectionEvent) :
    KeepsDefinite p event ↔ PermitsSecretScanning p event := by
  constructor
  · rintro h domainKey evidence stored rfl hstored hdefinite hothers
    obtain ⟨after, hafter, hdefinite'⟩ := h domainKey _ rfl domainKey stored hstored hdefinite
    rw [repositories_captured, if_pos rfl] at hafter
    by_contra hlacks
    rw [Bool.not_eq_false] at hlacks
    have hcomplete : evidence.isComplete = true :=
      RepositoryEvidence.isComplete_iff.mpr ⟨hothers, .inr hlacks⟩
    rw [Upsert.keep_of_complete _ hcomplete] at hafter
    cases hafter
    rw [SecretScanningResult.not_lacksPermission hdefinite'.secretScanning] at hlacks
    cases hlacks
  · rintro h domainKey evidence rfl k stored hstored hdefinite
    cases evidence with
    | none => exact ⟨stored, hstored, hdefinite⟩
    | some evidence =>
      rw [repositories_captured]
      by_cases hk : domainKey = k
      · subst hk
        rw [if_pos rfl]
        cases hcomplete : evidence.isComplete with
        | true =>
          obtain ⟨hothers, hsecret⟩ := RepositoryEvidence.isComplete_iff.mp hcomplete
          have hpermits := h domainKey evidence stored rfl hstored hdefinite hothers
          refine ⟨evidence, Upsert.keep_of_complete _ hcomplete _, hothers, ?_⟩
          rw [hpermits] at hsecret
          exact hsecret.resolve_right Bool.false_ne_true
        | false =>
          refine ⟨stored, ?_, hdefinite⟩
          rw [Upsert.keep_of_incomplete _ hcomplete, hstored, Option.any_some, hdefinite.isComplete,
            if_pos rfl]
      · rw [if_neg hk]
        exact ⟨stored, hstored, hdefinite⟩

/--
No capture of a run puts indefinite evidence over definite exactly when none of its captures has
over definite evidence a secret scanning that lacks a permission, and is definite otherwise.
-/
theorem no_downgrade_iff (events : List EvidenceProjectionEvent) :
    projecting.Along KeepsDefinite .default events ↔
      projecting.Along PermitsSecretScanning .default events :=
  Machine.along_congr keepsDefinite_iff

/-! ## A missing permission -/

section Sample

def scannedChecks (secretScanning : SecretScanningResult) : RepositoryChecks where
  securityPolicy := .absent ""
  secretScanning := secretScanning
  dependabotSecurityUpdates := ⟨.enabled, none, ""⟩
  branchProtection := .protected "main" ""
  codeowners := .absent ""

def scannedRepository : Repository where
  id := "1"
  nodeId := none
  name := "name"
  visibility := .public
  language := none
  defaultBranch := "main"
  archived := false
  inventoryKey := "1"
  updatedAt := none
  hasIssues := false
  pushedAt := none
  createdAt := none
  description := none
  fork := false
  isEmpty := false
  htmlUrl := none
  topics := []
  licenseSpdx := none

def scannedEvidence (secretScanning : SecretScanningResult) : RepositoryEvidence :=
  ⟨scannedRepository, scannedChecks secretScanning, none, false⟩

def scannedCapture (secretScanning : SecretScanningResult) : EvidenceProjectionEvent :=
  .repositoryStateCaptured false "1" (some (scannedEvidence secretScanning))

def scanningEnabled : SecretScanningResult :=
  .enabled (.metadata none (.observable .orgSummary false none)) ""

def scanningForbidden : SecretScanningResult :=
  .unobservable (.missing (some 200)) (.failed .perRepoEndpoint .permissionDenied (some 403)) ""

/-- Secret scanning is seen to be enabled, and later its probe is forbidden. -/
theorem definite_evidence_downgraded :
    ¬ ∀ events, projecting.Along KeepsDefinite .default events := by
  intro hclaim
  obtain ⟨-, hforbidden, -⟩ :=
    hclaim [scannedCapture scanningEnabled, scannedCapture scanningForbidden]
  have hstored :
      (EvidenceProjection.default.apply (scannedCapture scanningEnabled)).repositories["1"]? =
        some (scannedEvidence scanningEnabled) := by
    rw [scannedCapture, repositories_captured, if_pos rfl]
    exact Upsert.keep_of_complete _ rfl _
  have hothers : (scannedChecks scanningForbidden).OthersDefinite := ⟨rfl, nofun, rfl, rfl⟩
  have hdefinite : (scannedChecks scanningEnabled).Definite := ⟨⟨rfl, nofun, rfl, rfl⟩, rfl⟩
  have hlacks := (keepsDefinite_iff _ _).mp hforbidden "1" (scannedEvidence scanningForbidden)
    (scannedEvidence scanningEnabled) rfl hstored hdefinite hothers
  cases hlacks

end Sample

end GhReport.Projection
