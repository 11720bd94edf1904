import GhReport.Event.Types
import Std.Data.ExtTreeMap

/-! # Domain types

Repository evidence, organisation state and team rosters as the collectors and
the report read them. Enumerations that the source repeats variant for variant
in its event and domain layers are one type here.
-/

namespace GhReport.Domain

open Event

/-- A map with string keys in key order. -/
abbrev KeyMap (V : Type) := Std.ExtTreeMap String V compare

abbrev TeamMemberRole := TeamMemberRoleEvent

abbrev TeamRosterStatus := TeamRosterStatusEvent

/-! ## Repositories and their checks -/

/-- A non-empty text kept as it was spelled. -/
abbrev NonEmptyText := { s : String // s ≠ "" }

structure Repository where
  id : String
  nodeId : Option String
  name : String
  visibility : Visibility
  language : Option String
  defaultBranch : String
  archived : Bool
  inventoryKey : String
  updatedAt : Option NonEmptyText
  hasIssues : Bool
  pushedAt : Option String
  createdAt : Option String
  description : Option String
  fork : Bool
  isEmpty : Bool
  htmlUrl : Option String
  topics : List String
  licenseSpdx : Option String
deriving DecidableEq

inductive SecurityPolicyResult where
  | enabledBySetting (timestamp : String)
  | enabledByFile (path : NonEmptyText) (timestamp : String)
  | absent (timestamp : String)
  | unobservable (reason : IndeterminateReason) (timestamp : String)
  | notApplicable (timestamp : String)
deriving DecidableEq

inductive SecretScanningResult where
  | enabled (provenance : EnabledProvenance) (timestamp : String)
  | disabled (metadataHttpStatus : Option UInt16) (observation : DisabledObservation)
      (timestamp : String)
  | unobservable (metadata : MetadataUnavailable) (probe : UnobservableProbe)
      (timestamp : String)
deriving DecidableEq

structure DependabotResult where
  status : DependabotStatus
  reason : Option String
  timestamp : String
deriving DecidableEq

inductive BranchProtectionResult where
  | «protected» (defaultBranch : String) (timestamp : String)
  | unprotected (defaultBranch : String) (gap : HistoryProtectionGap) (timestamp : String)
  | unobservable (defaultBranch : String) (reason : IndeterminateReason)
      (httpStatus : Option UInt16) (timestamp : String)
deriving DecidableEq

structure CodeownersEntry where
  pattern : String
  owners : List String
deriving DecidableEq

structure ParsedCodeowners where
  entries : List CodeownersEntry
  uniqueOwners : List String
  skippedLines : UInt32
deriving DecidableEq

inductive CodeownersContent where
  | parsed (value : ParsedCodeowners)
  | truncated (reason : CodeownersTruncationReason)
  | unparsed
deriving DecidableEq

inductive CodeownersResult where
  | conforming (content : CodeownersContent) (timestamp : String)
  | nonConforming (location : CodeownersNonConformingLocation) (content : CodeownersContent)
      (timestamp : String)
  | absent (timestamp : String)
  | unobservable (reason : IndeterminateReason) (timestamp : String)
deriving DecidableEq

structure RepositoryChecks where
  securityPolicy : SecurityPolicyResult
  secretScanning : SecretScanningResult
  dependabotSecurityUpdates : DependabotResult
  branchProtection : BranchProtectionResult
  codeowners : CodeownersResult
deriving DecidableEq

structure LastCommitInfo where
  committerLogin : Option String
  committerName : Option String
  commitDate : Option String
deriving DecidableEq

structure RepositoryEvidence where
  repository : Repository
  checks : RepositoryChecks
  lastCommit : Option LastCommitInfo
  repoDetailsNotModified : Bool
deriving DecidableEq

def Repository.isPublic (repo : Repository) : Bool := repo.visibility == .public

/-- Equality of repositories as the source defines it: informational fields do not count. -/
def Repository.eq (a b : Repository) : Bool :=
  a.id == b.id && a.name == b.name && a.visibility == b.visibility
    && a.defaultBranch == b.defaultBranch && a.archived == b.archived
    && a.inventoryKey == b.inventoryKey && a.updatedAt == b.updatedAt

def RepositoryEvidence.eq (a b : RepositoryEvidence) : Bool :=
  a.repository.eq b.repository && a.checks == b.checks && a.lastCommit == b.lastCommit
    && a.repoDetailsNotModified == b.repoDetailsNotModified

/-! ## Statuses -/

inductive SecurityPolicyEvidence where
  | setting | file | absent | permissionDenied | transientError | collectionError | notApplicable
deriving DecidableEq

inductive SecurityPolicyStatus where
  | pass | fail | unknown | notApplicable
deriving DecidableEq

inductive SecretScanningStatus where
  | enabled | disabled | permissionDenied | unknown
deriving DecidableEq

inductive CodeownersStatus where
  | conforming | nonConforming | absent | unknown
deriving DecidableEq

def SecurityPolicyResult.status : SecurityPolicyResult → SecurityPolicyStatus
  | enabledBySetting .. | enabledByFile .. => .pass
  | absent .. => .fail
  | unobservable .. => .unknown
  | notApplicable .. => .notApplicable

def SecurityPolicyResult.timestamp : SecurityPolicyResult → String
  | enabledBySetting timestamp | enabledByFile _ timestamp | absent timestamp
  | unobservable _ timestamp | notApplicable timestamp => timestamp

/-- An explicit or suspected permission failure. -/
def permissionFailure : SecretScanningFailureReason → Bool
  | .permissionDenied | .permissionSuspected => true
  | _ => false

def MetadataUnavailable.permission : MetadataUnavailable → Bool
  | .failure reason _ => permissionFailure reason
  | _ => false

def UnobservableProbe.permission : UnobservableProbe → Bool
  | .failed _ reason _ => permissionFailure reason
  | _ => false

/-- A permission failure of the metadata or of the probe outranks the other reasons. -/
def SecretScanningResult.status : SecretScanningResult → SecretScanningStatus
  | enabled .. => .enabled
  | disabled .. => .disabled
  | unobservable metadata probe _ =>
    if MetadataUnavailable.permission metadata || UnobservableProbe.permission probe then
      .permissionDenied
    else .unknown

def SecretScanningResult.timestamp : SecretScanningResult → String
  | enabled _ timestamp | disabled _ _ timestamp | unobservable _ _ timestamp => timestamp

def MetadataUnavailable.failureReason : MetadataUnavailable → SecretScanningFailureReason
  | .missing _ => .insufficientEvidence
  | .malformed _ => .invalid
  | .failure reason _ => reason

def SecretScanningResult.statusMismatch : SecretScanningResult → Bool
  | disabled _ (.statusMismatch ..) _ => true
  | _ => false

def SecretScanningResult.failureReason : SecretScanningResult → Option SecretScanningFailureReason
  | enabled (.metadata _ (.unobservable _ reason _)) _ => some reason
  | disabled _ (.probeFailed _ reason _) _ => some reason
  | unobservable _ (.failed _ reason _) _ => some reason
  | unobservable metadata _ _ => some (MetadataUnavailable.failureReason metadata)
  | enabled .. | disabled .. => none

/-- The reason text a failed or mismatching evaluation reports. -/
def SecretScanningResult.reason (r : SecretScanningResult) : Option String :=
  if r.statusMismatch then some "status_mismatch"
  else r.failureReason.map fun
    | .permissionDenied | .permissionSuspected => "permission_denied"
    | .rateLimited => "rate_limited"
    | .transient => "transient_error"
    | .unavailable => "alerts_unavailable"
    | .insufficientEvidence => "insufficient_evidence"
    | .conflict => "conflict"
    | .invalid => "collection_error"
    | .pending => "pending"

def BranchProtectionResult.timestamp : BranchProtectionResult → String
  | «protected» _ timestamp | unprotected _ _ timestamp | unobservable _ _ _ timestamp => timestamp

def BranchProtectionResult.isObserved : BranchProtectionResult → Bool
  | unobservable .. => false
  | _ => true

def BranchProtectionResult.isPending : BranchProtectionResult → Bool
  | unobservable _ .pending _ _ => true
  | _ => false

def CodeownersResult.status : CodeownersResult → CodeownersStatus
  | conforming .. => .conforming
  | nonConforming .. => .nonConforming
  | absent .. => .absent
  | unobservable .. => .unknown

def CodeownersResult.timestamp : CodeownersResult → String
  | conforming _ timestamp | nonConforming _ _ timestamp | absent timestamp
  | unobservable _ timestamp => timestamp

/-- The owners read from a parsed file, at whichever location it was found. -/
def CodeownersResult.parsed : CodeownersResult → Option ParsedCodeowners
  | conforming (.parsed value) _ | nonConforming _ (.parsed value) _ => some value
  | _ => none

/-- Every check resolved to something other than its unknown status. -/
def RepositoryEvidence.isComplete (e : RepositoryEvidence) : Bool :=
  e.checks.securityPolicy.status != .unknown
    && e.checks.secretScanning.status != .unknown
    && e.checks.dependabotSecurityUpdates.status != .unknown
    && e.checks.branchProtection.isObserved
    && e.checks.codeowners.status != .unknown

/-! ## Read states -/

inductive RepositoryReadState where
  | pending | failed | observed
deriving DecidableEq

namespace RepositoryReadState

def pendingReason := "pending"

/-- The timestamps of the five checks, where the check is an observation. -/
def observedCheckTimestamps (c : RepositoryChecks) : List (Option String) :=
  [ if c.securityPolicy.status = .pass ∨ c.securityPolicy.status = .fail then
      some c.securityPolicy.timestamp else none,
    if c.secretScanning.status = .enabled ∨ c.secretScanning.status = .disabled then
      some c.secretScanning.timestamp else none,
    if c.dependabotSecurityUpdates.status ≠ .unknown then
      some c.dependabotSecurityUpdates.timestamp else none,
    if c.branchProtection.isObserved then some c.branchProtection.timestamp else none,
    if c.codeowners.status ≠ .unknown then some c.codeowners.timestamp else none ]

/-- Observed with one observation; otherwise pending when all three reasons say so. -/
def fromChecks (c : RepositoryChecks) : RepositoryReadState :=
  let hasObservation := (observedCheckTimestamps c).any Option.isSome
  let pending := [c.secretScanning.reason, c.dependabotSecurityUpdates.reason,
    if c.branchProtection.isPending then some pendingReason else none].all
      fun reason => reason = some pendingReason
  if hasObservation then .observed else if pending then .pending else .failed

end RepositoryReadState

/-! ## Organisation state -/

inductive CollectionCoverage where
  | unknown
  | known (total : ℕ) (limit : { n : UInt64 // n ≠ 0 })
deriving DecidableEq

structure AssessmentMetadata where
  date : String
  organization : String
  schemaVersion : String
  runTimestamp : String
  runId : String
  tokenTier : TokenTier
  tokenScopes : String
  authMode : AuthMode
  rateLimitWarnings : UInt32
  unavailableCapabilities : List Capability
  inventoryFetchedAt : Option String
  warmStart : Bool
  coverage : CollectionCoverage
deriving DecidableEq

structure RepoAlertSummary where
  openAlertCount : UInt64
  oldestOpenAlertCreatedAt : Option String
  newestOpenAlertCreatedAt : Option String
deriving DecidableEq

structure OrgAlertSummary where
  collectionStatus : CollectionStatus
  collectionReason : Option String
  httpStatus : Option UInt16
  perRepo : KeyMap RepoAlertSummary
  openSecretAlertAgeBuckets : KeyMap UInt64
  totalOpenSecretAlerts : UInt64
  oldestOpenSecretAlertCreatedAt : Option String
  newestOpenSecretAlertCreatedAt : Option String

structure OrgStateSnapshot where
  archivedRepos : UInt32
  assessmentMetadata : AssessmentMetadata
  alertSummary : OrgAlertSummary

/-! ## Team rosters -/

structure TeamMember where
  login : String
  role : TeamMemberRole
  inOrg : Option Bool
deriving DecidableEq

structure TeamRoster where
  canonicalOwner : String
  teamSlug : String
  status : TeamRosterStatus
  members : List TeamMember
  fetchedAt : Option String
deriving DecidableEq

/-- The text before and after the first occurrence of a character. -/
def splitOnce (sep : Char) : List Char → Option (List Char × List Char)
  | [] => none
  | c :: rest =>
    if c = sep then some ([], rest)
    else (splitOnce sep rest).map fun p => (c :: p.1, p.2)

/-- The slug of `@org/slug`, unless it is empty or holds a glob character. -/
def teamSlugFromCanonicalOwner (canonicalOwner : String) : Option String :=
  match canonicalOwner.toList with
  | '@' :: stripped =>
    match splitOnce '/' stripped with
    | some (_, slug) =>
      if !slug.isEmpty && !slug.any fun c => ['*', '?', '[', ']', '!'].contains c then
        some (String.ofList slug)
      else none
    | none => none
  | _ => none

end GhReport.Domain
