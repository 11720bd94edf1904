import GhReport.Domain.Types
import GhReport.GitHub.Client
import Mathlib.Algebra.Group.Int.Defs
import Mathlib.Algebra.Group.Nat.Defs
import Mathlib.Data.UInt

/-! # Secret scanning

The details of the repository say whether scanning is enabled; a probe, of the
organisation's alerts or of the repository's own, says whether alerts can be seen.
-/

namespace GhReport.Collector.SecretScanning

open Domain GitHub
open Event (SecretScanningFailureReason ProbeSource MetadataUnavailable SecretScanningAlerts
  EnabledProvenance DisabledObservation UnobservableProbe CollectionStatus)

def scopeKey (repo : Repository) : String := repo.id

/-! ## Metadata -/

inductive RepoMetadata where
  | enabled (httpStatus : Option UInt16)
  | disabled (httpStatus : Option UInt16)
  | unavailable (metadata : MetadataUnavailable)
deriving DecidableEq

def failureReason (outcome : ApiOutcome) : SecretScanningFailureReason :=
  if outcome.statusCode = some 401 ∨ outcome.statusCode = some 403 then .permissionDenied
  else if outcome.statusCode = some 404 then .unavailable
  else if outcome.statusCode = some 429 then .rateLimited
  else if outcome.isRetryable then .transient
  else .invalid

/-- Follow the fields down to the status; all but the last one have to be objects. -/
def statusNode (httpStatus : Option UInt16) :
    List String → Json → Except MetadataUnavailable Json
  | [], node => .ok node
  | field :: rest, node =>
    match node.get field with
    | none | some .null => .error (.missing httpStatus)
    | some value =>
      if field ≠ "status" ∧ !value.isObject then .error (.malformed httpStatus)
      else statusNode httpStatus rest value

def extractRepoMetadata (outcome : ApiOutcome) : RepoMetadata :=
  let httpStatus := outcome.statusCode
  if !outcome.isOk then .unavailable (.failure (failureReason outcome) httpStatus)
  else
    match outcome.data.filter Json.isObject with
    | none => .unavailable (.malformed httpStatus)
    | some node =>
      match statusNode httpStatus ["security_and_analysis", "secret_scanning", "status"] node with
      | .error metadata => .unavailable metadata
      | .ok node =>
        if node.asStr = some "enabled" then .enabled httpStatus
        else if node.asStr = some "disabled" then .disabled httpStatus
        else .unavailable (.malformed httpStatus)

/-! ## Probes -/

def endpointProbe (outcome : ApiOutcome) : SecretScanningAlerts :=
  let httpStatus := outcome.statusCode
  match outcome.isOk, outcome.isTruncated, outcome.data.bind Json.asArray with
  | true, false, some items => .observable .perRepoEndpoint (!items.isEmpty) httpStatus
  | true, _, _ => .unobservable .perRepoEndpoint .invalid httpStatus
  | _, _, _ => .unobservable .perRepoEndpoint (failureReason outcome) httpStatus

def unavailableReason (collectionReason : Option String) : SecretScanningFailureReason :=
  match collectionReason with
  | some reason =>
    if reason = "malformed_response" ∨ reason = "malformed_alert_item" ∨
        reason = "alert_correlation_unidentifiable" then .invalid
    else if reason = "alert_coordinate_conflict" ∨ reason = "repository_alias_collision" then
      .conflict
    else if reason = "rate_limited" then .rateLimited
    else .unavailable
  | none => .unavailable

def orgProbe (repo : Repository) (summary : OrgAlertSummary) : SecretScanningAlerts :=
  let unobservable (reason : SecretScanningFailureReason) : SecretScanningAlerts :=
    .unobservable .orgSummary reason summary.httpStatus
  match summary.collectionStatus with
  | .success =>
    let hasOpenAlerts := (summary.perRepo[scopeKey repo]?).any fun s => 0 < s.openAlertCount
    .observable .orgSummary hasOpenAlerts summary.httpStatus
  | .permissionDenied => unobservable .permissionDenied
  | .transientError => unobservable .transient
  | .notCollected | .unavailable => unobservable (unavailableReason summary.collectionReason)

/-! ## Evaluation -/

def fromObservations (metadata : RepoMetadata) (probe : SecretScanningAlerts)
    (timestamp : String) : SecretScanningResult :=
  match metadata, probe with
  | .enabled httpStatus, alerts => .enabled (.metadata httpStatus alerts) timestamp
  | .disabled metadataHttpStatus, .observable source false httpStatus =>
    .disabled metadataHttpStatus (.noMismatch source httpStatus) timestamp
  | .disabled metadataHttpStatus, .observable source true httpStatus =>
    .disabled metadataHttpStatus (.statusMismatch source httpStatus) timestamp
  | .disabled metadataHttpStatus, .unobservable source reason httpStatus =>
    .disabled metadataHttpStatus (.probeFailed source reason httpStatus) timestamp
  | .unavailable metadata, .observable .perRepoEndpoint hasOpenAlerts httpStatus =>
    .enabled (.fallback metadata hasOpenAlerts httpStatus) timestamp
  | .unavailable metadata, .observable .orgSummary hasOpenAlerts httpStatus =>
    .unobservable metadata (.orgSummaryObserved hasOpenAlerts httpStatus) timestamp
  | .unavailable metadata, .unobservable source reason httpStatus =>
    .unobservable metadata (.failed source reason httpStatus) timestamp

/-- A verdict that one failure stands behind. -/
def unobservable (reason : SecretScanningFailureReason) (timestamp : String) :
    SecretScanningResult :=
  .unobservable (.failure reason none) (.failed .perRepoEndpoint reason none) timestamp

/-- The evaluation of a repository whose name can be put into a path. -/
def evaluate (validName : Bool) (repo : Repository) (repoDetails alerts : ApiOutcome)
    (orgSummary : Option OrgAlertSummary) (runTimestamp : String) : SecretScanningResult :=
  if !validName then unobservable .invalid runTimestamp
  else
    let metadata := extractRepoMetadata repoDetails
    match orgSummary with
    | some summary => fromObservations metadata (orgProbe repo summary) runTimestamp
    | none => fromObservations metadata (endpointProbe alerts) runTimestamp

end GhReport.Collector.SecretScanning
