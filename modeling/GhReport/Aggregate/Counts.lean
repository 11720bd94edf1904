import GhReport.Domain.Owners
import GhReport.Domain.Scores
import GhReport.Library.Tally
import Mathlib.Data.Rat.Defs

/-! # Counts

The counters behind the metrics: counts of each status, tallies of the reasons
of exclusions, and the rates made of them. Counters stop at the largest 32-bit
number.
-/

namespace GhReport.Aggregate

open Domain

def u32Max : ℕ := 2 ^ 32 - 1

def saturatingAdd (a b : ℕ) : ℕ := Tally.add u32Max a b

def countAsU32 (n : ℕ) : ℕ := min n u32Max

/-! ## Rates -/

structure RateMetric where
  numerator : ℕ
  denominator : ℕ
  extra : KeyMap ℕ

namespace RateMetric

def new (numerator denominator : ℕ) : RateMetric := ⟨numerator, denominator, ∅⟩

def withExtra (metric : RateMetric) (key : String) (value : ℕ) : RateMetric :=
  if key = "numerator" ∨ key = "denominator" ∨ key = "rate" then metric
  else { metric with extra := metric.extra.insert key value }

/-- The rate in percent; `inTenths` makes it of a quotient, and rounds it. -/
def rate (inTenths : ℚ → ℚ) (metric : RateMetric) : Option ℚ :=
  if 0 < metric.denominator then some (inTenths (metric.numerator / metric.denominator)) else none

@[simp] theorem numerator_withExtra (metric : RateMetric) (key : String) (value : ℕ) :
    (metric.withExtra key value).numerator = metric.numerator := by
  unfold withExtra
  split <;> rfl

@[simp] theorem denominator_withExtra (metric : RateMetric) (key : String) (value : ℕ) :
    (metric.withExtra key value).denominator = metric.denominator := by
  unfold withExtra
  split <;> rfl

end RateMetric

/-! ## Exclusions -/

inductive CollectionHealthCheckKind where
  | branchProtection | secretScanning | dependabot | codeowners | securityPolicy | inventory
  | rulesets
deriving DecidableEq

structure ScoreExclusionCount where
  checkKind : CollectionHealthCheckKind
  reason : ExclusionReason
  count : ℕ
deriving DecidableEq

structure ExclusionTally where
  permissionDenied : ℕ := 0
  unknown : ℕ := 0
  notApplicable : ℕ := 0
  other : ℕ := 0
deriving DecidableEq

namespace ExclusionTally

/-- A control that applies was not measured on some repository. -/
def hasMeasurementFailure (tally : ExclusionTally) : Bool :=
  tally.permissionDenied > 0 || tally.unknown > 0 || tally.other > 0

def record (tally : ExclusionTally) : ExclusionReason → ExclusionTally
  | .permissionDenied =>
    { tally with permissionDenied := saturatingAdd tally.permissionDenied 1 }
  | .unknown => { tally with unknown := saturatingAdd tally.unknown 1 }
  | .notApplicable => { tally with notApplicable := saturatingAdd tally.notApplicable 1 }
  | .other => { tally with other := saturatingAdd tally.other 1 }

def pushCounts (tally : ExclusionTally) (checkKind : CollectionHealthCheckKind)
    (out : List ScoreExclusionCount) : List ScoreExclusionCount :=
  out ++ [(.permissionDenied, tally.permissionDenied), (.unknown, tally.unknown),
    (.notApplicable, tally.notApplicable), (.other, tally.other)].filterMap
      fun (reason, count) => if count > 0 then some ⟨checkKind, reason, count⟩ else none

end ExclusionTally

/-- An applicable control that nothing could be measured on fails; one that applies nowhere does
not count. -/
def coverageMetric (pass fail : ℕ) (tally : ExclusionTally) : RateMetric :=
  let denominator := saturatingAdd pass fail
  if denominator = 0 ∧ tally.hasMeasurementFailure then .new 0 1
  else .new pass denominator

/-! ## Counts of statuses -/

structure PolicyCounts where
  viaSetting : ℕ := 0
  viaFile : ℕ := 0
  unknown : ℕ := 0
  missing : ℕ := 0
deriving DecidableEq

structure SecretScanningCounts where
  enabled : ℕ := 0
  disabled : ℕ := 0
  permissionDenied : ℕ := 0
  unknown : ℕ := 0
deriving DecidableEq

structure DependabotCounts where
  enabled : ℕ := 0
  paused : ℕ := 0
  disabled : ℕ := 0
  unknown : ℕ := 0
deriving DecidableEq

structure BranchProtectionCounts where
  pass : ℕ := 0
  fail : ℕ := 0
  unknown : ℕ := 0
deriving DecidableEq

structure CodeownersCounts where
  conforming : ℕ := 0
  nonConforming : ℕ := 0
  absent : ℕ := 0
  unknown : ℕ := 0
  truncated : ℕ := 0
deriving DecidableEq

structure SecretAlertCounts where
  reposWithOpenAlerts : ℕ := 0
  reposWithoutOpenAlerts : ℕ := 0
  unobservable : ℕ := 0
deriving DecidableEq

def countPolicyStatus (counts : PolicyCounts) (repo : RepositoryEvidence) : PolicyCounts :=
  let policy := repo.checks.securityPolicy
  match policy.status with
  | .pass =>
    if policy.evidence = .setting then
      { counts with viaSetting := saturatingAdd counts.viaSetting 1 }
    else { counts with viaFile := saturatingAdd counts.viaFile 1 }
  | .fail => { counts with missing := saturatingAdd counts.missing 1 }
  | .unknown => { counts with unknown := saturatingAdd counts.unknown 1 }
  -- Not expected of a public repository: a debug build asserts, a release build counts it.
  | .notApplicable => { counts with unknown := saturatingAdd counts.unknown 1 }

def countPolicyStatuses (publicRepos : List RepositoryEvidence) : PolicyCounts :=
  publicRepos.foldl countPolicyStatus {}

def countSecretScanningStatus (counts : SecretScanningCounts) (repo : RepositoryEvidence) :
    SecretScanningCounts :=
  match repo.checks.secretScanning.status with
  | .enabled => { counts with enabled := saturatingAdd counts.enabled 1 }
  | .disabled => { counts with disabled := saturatingAdd counts.disabled 1 }
  | .permissionDenied =>
    { counts with permissionDenied := saturatingAdd counts.permissionDenied 1 }
  | .unknown => { counts with unknown := saturatingAdd counts.unknown 1 }

def countSecretScanningStatuses (active : List RepositoryEvidence) : SecretScanningCounts :=
  active.foldl countSecretScanningStatus {}

def countDependabotStatus (counts : DependabotCounts) (repo : RepositoryEvidence) :
    DependabotCounts :=
  match repo.checks.dependabotSecurityUpdates.status with
  | .enabled => { counts with enabled := saturatingAdd counts.enabled 1 }
  | .paused => { counts with paused := saturatingAdd counts.paused 1 }
  | .disabled => { counts with disabled := saturatingAdd counts.disabled 1 }
  | .unknown => { counts with unknown := saturatingAdd counts.unknown 1 }

def countDependabotStatuses (active : List RepositoryEvidence) : DependabotCounts :=
  active.foldl countDependabotStatus {}

def countBranchProtectionStatus (counts : BranchProtectionCounts) (repo : RepositoryEvidence) :
    BranchProtectionCounts :=
  match repo.checks.branchProtection with
  | .protected .. => { counts with pass := saturatingAdd counts.pass 1 }
  | .unprotected .. => { counts with fail := saturatingAdd counts.fail 1 }
  | .unobservable .. => { counts with unknown := saturatingAdd counts.unknown 1 }

def countBranchProtectionStatuses (active : List RepositoryEvidence) : BranchProtectionCounts :=
  active.foldl countBranchProtectionStatus {}

def countCodeownersStatus (counts : CodeownersCounts) (repo : RepositoryEvidence) :
    CodeownersCounts :=
  let counts := match repo.checks.codeowners.status with
    | .conforming => { counts with conforming := saturatingAdd counts.conforming 1 }
    | .nonConforming => { counts with nonConforming := saturatingAdd counts.nonConforming 1 }
    | .absent => { counts with absent := saturatingAdd counts.absent 1 }
    | .unknown => { counts with unknown := saturatingAdd counts.unknown 1 }
  if repo.checks.codeowners.truncation.isSome then
    { counts with truncated := saturatingAdd counts.truncated 1 }
  else counts

def countCodeownersStatuses (active : List RepositoryEvidence) : CodeownersCounts :=
  active.foldl countCodeownersStatus {}

def countSecretAlert (counts : SecretAlertCounts) (repo : RepositoryEvidence) :
    SecretAlertCounts :=
  let ss := repo.checks.secretScanning
  if ss.alertsObservable ∧ ss.status = .enabled then
    match ss.hasOpenAlerts with
    | some true =>
      { counts with reposWithOpenAlerts := saturatingAdd counts.reposWithOpenAlerts 1 }
    | some false =>
      { counts with reposWithoutOpenAlerts := saturatingAdd counts.reposWithoutOpenAlerts 1 }
    | none => { counts with unobservable := saturatingAdd counts.unobservable 1 }
  else { counts with unobservable := saturatingAdd counts.unobservable 1 }

def countSecretAlertObservability (active : List RepositoryEvidence) : SecretAlertCounts :=
  active.foldl countSecretAlert {}

def countAlertObservableEnabled (active : List RepositoryEvidence) : ℕ :=
  countAsU32 (active.filter fun r =>
    r.checks.secretScanning.status = .enabled ∧ r.checks.secretScanning.alertsObservable
      ∧ r.checks.secretScanning.hasOpenAlerts.isSome).length

/-! ## Tallies from counts -/

def exclusionTallyFromPolicy (counts : PolicyCounts) : ExclusionTally :=
  { unknown := counts.unknown }

def exclusionTallyFromSecretScanning (counts : SecretScanningCounts) : ExclusionTally :=
  { permissionDenied := counts.permissionDenied, unknown := counts.unknown }

def exclusionTallyFromDependabot (counts : DependabotCounts) : ExclusionTally :=
  { unknown := counts.unknown }

def exclusionTallyFromCodeowners (counts : CodeownersCounts) : ExclusionTally :=
  { unknown := counts.unknown }

def ExclusionTally.recordCategory (tally : ExclusionTally) : ScoreCategory → ExclusionTally
  | .excluded reason => tally.record reason
  | .pass | .fail => tally

def countBranchProtectionExclusionReasons (active : List RepositoryEvidence) : ExclusionTally :=
  active.foldl (fun tally repo => tally.recordCategory repo.checks.branchProtection.scoreCategory)
    {}

/-! ## Collection health -/

inductive CollectionFailureReason where
  | permissionDenied | permissionSuspected | notFoundAbsent | transient | rateLimited | invalid
deriving DecidableEq

structure CollectionHealthCount where
  checkKind : CollectionHealthCheckKind
  reason : CollectionFailureReason
  count : ℕ
deriving DecidableEq

structure CollectionHealthTaxonomyCounts where
  secretScanningPermissionDenied : ℕ := 0
  branchProtectionPermissionSuspected : ℕ := 0
  branchProtectionNotFoundAbsent : ℕ := 0
  branchProtectionPermissionDenied : ℕ := 0
  branchProtectionTransient : ℕ := 0
  branchProtectionRateLimited : ℕ := 0
  branchProtectionInvalid : ℕ := 0
deriving DecidableEq

namespace CollectionHealthTaxonomyCounts

def countReason (counts : CollectionHealthTaxonomyCounts) (repo : RepositoryEvidence) :
    CollectionHealthTaxonomyCounts :=
  let counts :=
    if repo.checks.secretScanning.status = .permissionDenied then
      { counts with
        secretScanningPermissionDenied := saturatingAdd counts.secretScanningPermissionDenied 1 }
    else counts
  match repo.checks.branchProtection with
  | .unobservable _ .permissionDenied _ _ =>
    { counts with
      branchProtectionPermissionDenied :=
        saturatingAdd counts.branchProtectionPermissionDenied 1 }
  | .unobservable _ .permissionSuspected _ _ =>
    { counts with
      branchProtectionPermissionSuspected :=
        saturatingAdd counts.branchProtectionPermissionSuspected 1 }
  | .unobservable _ .transient _ _ =>
    { counts with
      branchProtectionTransient := saturatingAdd counts.branchProtectionTransient 1 }
  | .unobservable _ .rateLimited _ _ =>
    { counts with
      branchProtectionRateLimited := saturatingAdd counts.branchProtectionRateLimited 1 }
  | .unobservable _ .invalid _ _ =>
    { counts with branchProtectionInvalid := saturatingAdd counts.branchProtectionInvalid 1 }
  | .unobservable _ .pending _ _ => counts
  | .unprotected _ (.absent true _) _ =>
    { counts with
      branchProtectionNotFoundAbsent := saturatingAdd counts.branchProtectionNotFoundAbsent 1 }
  | .protected .. | .unprotected .. => counts

/-- The order of the check kinds, and within a check of the reasons. -/
def rank (entry : CollectionHealthCount) : ℕ × ℕ :=
  (entry.checkKind.ctorIdx, entry.reason.ctorIdx)

def intoCounts (counts : CollectionHealthTaxonomyCounts) : List CollectionHealthCount :=
  let pushed := [
    ⟨.secretScanning, .permissionDenied, counts.secretScanningPermissionDenied⟩,
    ⟨.branchProtection, .permissionSuspected, counts.branchProtectionPermissionSuspected⟩,
    ⟨.branchProtection, .notFoundAbsent, counts.branchProtectionNotFoundAbsent⟩,
    ⟨.branchProtection, .permissionDenied, counts.branchProtectionPermissionDenied⟩,
    ⟨.branchProtection, .transient, counts.branchProtectionTransient⟩,
    ⟨.branchProtection, .rateLimited, counts.branchProtectionRateLimited⟩,
    ⟨.branchProtection, .invalid, counts.branchProtectionInvalid⟩].filter fun
      (entry : CollectionHealthCount) => entry.count > 0
  pushed.insertionSort fun a b =>
    (rank a).1 < (rank b).1 ∨ (rank a).1 = (rank b).1 ∧ (rank a).2 ≤ (rank b).2

end CollectionHealthTaxonomyCounts

def countCollectionHealthReasons (active : List RepositoryEvidence) :
    CollectionHealthTaxonomyCounts :=
  active.foldl CollectionHealthTaxonomyCounts.countReason {}

end GhReport.Aggregate
