import GhReport.Domain.Types

/-! # Score categories

How each check result counts for a score: as passed, as failed, or excluded for a
reason.
-/

namespace GhReport.Domain

open Event

/-- Why a check is excluded from its score. -/
inductive ExclusionReason where
  | permissionDenied | unknown | notApplicable | other
deriving DecidableEq

inductive ScoreCategory where
  | pass
  | fail
  | excluded (reason : ExclusionReason)
deriving DecidableEq

/-- The reason for which a check that could not be observed is excluded. -/
def exclusionReason : IndeterminateReason → ExclusionReason
  | .permissionDenied | .permissionSuspected => .permissionDenied
  | .transient | .rateLimited | .invalid | .pending => .other

/-! ## Security policy -/

def SecurityPolicyResult.evidence : SecurityPolicyResult → SecurityPolicyEvidence
  | enabledBySetting .. => .setting
  | enabledByFile .. => .file
  | absent .. => .absent
  | notApplicable .. => .notApplicable
  | unobservable reason _ =>
    match reason with
    | .permissionDenied | .permissionSuspected => .permissionDenied
    | .transient => .transientError
    | .rateLimited | .invalid | .pending => .collectionError

def SecurityPolicyStatus.scoreCategory : SecurityPolicyStatus → ScoreCategory
  | pass => .pass
  | fail => .fail
  | unknown => .excluded .unknown
  | notApplicable => .excluded .notApplicable

def SecurityPolicyResult.scoreCategory (result : SecurityPolicyResult) : ScoreCategory :=
  match result with
  | unobservable reason _ => .excluded (exclusionReason reason)
  | enabledBySetting .. | enabledByFile .. | absent .. | notApplicable .. =>
    result.status.scoreCategory

/-! ## Secret scanning -/

def SecretScanningResult.hasOpenAlerts : SecretScanningResult → Option Bool
  | enabled (.metadata _ (.observable _ hasOpenAlerts _)) _
  | enabled (.fallback _ hasOpenAlerts _) _ => some hasOpenAlerts
  | enabled .. | disabled .. | unobservable .. => none

def SecretScanningResult.alertsObservable (result : SecretScanningResult) : Bool :=
  result.hasOpenAlerts.isSome

/-- The failures of secret scanning that the score does not tell apart. -/
def otherFailure : Option SecretScanningFailureReason → Bool
  | some .rateLimited | some .transient | some .invalid | some .pending => true
  | _ => false

def SecretScanningResult.scoreCategory (result : SecretScanningResult) : ScoreCategory :=
  match result.status with
  | .enabled => .pass
  | .disabled => .fail
  | .permissionDenied => .excluded .permissionDenied
  | .unknown => .excluded (if otherFailure result.failureReason then .other else .unknown)

/-! ## Dependabot, branch protection and CODEOWNERS -/

def dependabotCategory : DependabotStatus → ScoreCategory
  | .enabled => .pass
  | .paused | .disabled => .fail
  | .unknown => .excluded .unknown

def BranchProtectionResult.scoreCategory : BranchProtectionResult → ScoreCategory
  | «protected» .. => .pass
  | unprotected .. => .fail
  | unobservable _ reason _ _ => .excluded (exclusionReason reason)

def CodeownersStatus.scoreCategory : CodeownersStatus → ScoreCategory
  | conforming => .pass
  | nonConforming | absent => .fail
  | unknown => .excluded .unknown

def CodeownersResult.scoreCategory (result : CodeownersResult) : ScoreCategory :=
  match result with
  | unobservable reason _ => .excluded (exclusionReason reason)
  | conforming .. | nonConforming .. | absent .. => result.status.scoreCategory

def CodeownersResult.truncation : CodeownersResult → Option CodeownersTruncationReason
  | conforming (.truncated reason) _ | nonConforming _ (.truncated reason) _ => some reason
  | conforming .. | nonConforming .. | absent .. | unobservable .. => none

end GhReport.Domain
