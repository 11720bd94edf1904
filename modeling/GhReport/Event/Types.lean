import GhReport.Pardosa.Types

/-! # Native event types

The durable payloads: repository evidence with its five check results, the
organisation snapshot, one team's roster, and the sweep timeout record.
-/

namespace GhReport.Event

open Pardosa

/-! ## Limits -/

namespace Limits

def maxDomainKey : Limit := 128
def maxRepoName : Limit := 256
def maxGithubId : Limit := 128
def maxNodeId : Limit := 256
def maxBranchName : Limit := 256
def maxLanguage : Limit := 128
def maxDescription : Limit := 4096
def maxUrl : Limit := 2048
def maxTopic : Limit := 128
def maxTopics : Limit := 128
def maxLicense : Limit := 128
def maxLogin : Limit := 256
def maxPersonName : Limit := 256
def maxPath : Limit := 4096
def maxReason : Limit := 4096
def maxCodeownersPattern : Limit := 4096
def maxCodeownersOwner : Limit := 256
def maxCodeownersOwners : Limit := 256
def maxCodeownersEntries : Limit := 4096
def maxAssessmentDate : Limit := 64
def maxSchemaVersion : Limit := 64
def maxRunId : Limit := 256
def maxTokenScopes : Limit := 8192
def maxTimestampText : Limit := 128
def maxSweepTimeoutError : Limit := 256
def maxUnavailableCapabilities : Limit := 32
def maxOrgAlertRepos : Limit := 1000000
def maxAlertBucket : Limit := 128
def maxAlertBuckets : Limit := 128
def maxTeamMembers : Limit := 16384

end Limits

open Limits

/-! ## Sweep timeouts -/

inductive SweepTimeoutEvent where
  | targetOpened (eventId : Uuid)
  | timeoutFired (eventId : Uuid) (runId : EventString maxRunId)
      (error : EventString maxSweepTimeoutError) (elapsedMs : UInt64)
deriving DecidableEq

/-! ## Repository evidence -/

inductive Visibility where
  | «public» | internal | «private»
deriving DecidableEq

structure Repository where
  id : NonEmptyEventString maxGithubId
  nodeId : Option (EventString maxNodeId)
  name : NonEmptyEventString maxRepoName
  visibility : Visibility
  language : Option (EventString maxLanguage)
  defaultBranch : NonEmptyEventString maxBranchName
  archived : Bool
  inventoryKey : NonEmptyEventString maxDomainKey
  updatedAt : Option (NonEmptyEventString maxTimestampText)
  hasIssues : Bool
  pushedAt : Option Timestamp
  createdAt : Option Timestamp
  description : Option (EventString maxDescription)
  fork : Bool
  isEmpty : Bool
  htmlUrl : Option (EventString maxUrl)
  topics : EventVec (EventString maxTopic) maxTopics
  licenseSpdx : Option (EventString maxLicense)
deriving DecidableEq

inductive IndeterminateReason where
  | permissionDenied | permissionSuspected | transient | rateLimited | invalid | pending
deriving DecidableEq

inductive SecurityPolicyResult where
  | enabledBySetting (timestamp : Timestamp)
  | enabledByFile (path : NonEmptyEventString maxPath) (timestamp : Timestamp)
  | absent (timestamp : Timestamp)
  | unobservable (reason : IndeterminateReason) (timestamp : Timestamp)
  | notApplicable (timestamp : Timestamp)
deriving DecidableEq

inductive SecretScanningFailureReason where
  | permissionDenied | permissionSuspected | rateLimited | transient | unavailable
  | insufficientEvidence | conflict | invalid | pending
deriving DecidableEq

inductive ProbeSource where
  | orgSummary | perRepoEndpoint
deriving DecidableEq

inductive MetadataUnavailable where
  | missing (httpStatus : Option UInt16)
  | malformed (httpStatus : Option UInt16)
  | failure (reason : SecretScanningFailureReason) (httpStatus : Option UInt16)
deriving DecidableEq

inductive SecretScanningAlerts where
  | observable (source : ProbeSource) (hasOpenAlerts : Bool) (httpStatus : Option UInt16)
  | unobservable (source : ProbeSource) (reason : SecretScanningFailureReason)
      (httpStatus : Option UInt16)
deriving DecidableEq

inductive EnabledProvenance where
  | metadata (httpStatus : Option UInt16) (alerts : SecretScanningAlerts)
  | fallback (metadata : MetadataUnavailable) (hasOpenAlerts : Bool) (httpStatus : Option UInt16)
deriving DecidableEq

inductive DisabledObservation where
  | noMismatch (source : ProbeSource) (httpStatus : Option UInt16)
  | statusMismatch (source : ProbeSource) (httpStatus : Option UInt16)
  | probeFailed (source : ProbeSource) (reason : SecretScanningFailureReason)
      (httpStatus : Option UInt16)
deriving DecidableEq

inductive UnobservableProbe where
  | failed (source : ProbeSource) (reason : SecretScanningFailureReason)
      (httpStatus : Option UInt16)
  | orgSummaryObserved (hasOpenAlerts : Bool) (httpStatus : Option UInt16)
deriving DecidableEq

inductive SecretScanningResult where
  | enabled (provenance : EnabledProvenance) (timestamp : Timestamp)
  | disabled (metadataHttpStatus : Option UInt16) (observation : DisabledObservation)
      (timestamp : Timestamp)
  | unobservable (metadata : MetadataUnavailable) (probe : UnobservableProbe)
      (timestamp : Timestamp)
deriving DecidableEq

inductive DependabotStatus where
  | enabled | paused | disabled | unknown
deriving DecidableEq

structure DependabotResult where
  status : DependabotStatus
  reason : Option (EventString maxReason)
  timestamp : Timestamp
deriving DecidableEq

inductive HistoryProtectionGap where
  | absent (confirmedNotFound : Bool) (httpStatus : Option UInt16)
  | neitherBlocked
  | forcePushAllowed
  | deletionAllowed
deriving DecidableEq

inductive BranchProtectionResult where
  | «protected» (defaultBranch : NonEmptyEventString maxBranchName) (timestamp : Timestamp)
  | unprotected (defaultBranch : NonEmptyEventString maxBranchName) (gap : HistoryProtectionGap)
      (timestamp : Timestamp)
  | unobservable (defaultBranch : NonEmptyEventString maxBranchName)
      (reason : IndeterminateReason) (httpStatus : Option UInt16) (timestamp : Timestamp)
deriving DecidableEq

inductive CodeownersNonConformingLocation where
  | root | docs
deriving DecidableEq

inductive CodeownersTruncationReason where
  | notBase64Encoded | oversizedBase64 | contentMissing | decodeFailed | invalidUtf8
deriving DecidableEq

structure CodeownersEntry where
  pattern : EventString maxCodeownersPattern
  owners : EventVec (EventString maxCodeownersOwner) maxCodeownersOwners
deriving DecidableEq

structure ParsedCodeowners where
  entries : EventVec CodeownersEntry maxCodeownersEntries
  uniqueOwners : EventVec (EventString maxCodeownersOwner) maxCodeownersOwners
  skippedLines : UInt32
deriving DecidableEq

inductive CodeownersContent where
  | parsed (value : ParsedCodeowners)
  | truncated (reason : CodeownersTruncationReason)
  | unparsed
deriving DecidableEq

inductive CodeownersResult where
  | conforming (content : CodeownersContent) (timestamp : Timestamp)
  | nonConforming (location : CodeownersNonConformingLocation) (content : CodeownersContent)
      (timestamp : Timestamp)
  | absent (timestamp : Timestamp)
  | unobservable (reason : IndeterminateReason) (timestamp : Timestamp)
deriving DecidableEq

structure RepositoryChecks where
  securityPolicy : SecurityPolicyResult
  secretScanning : SecretScanningResult
  dependabotSecurityUpdates : DependabotResult
  branchProtection : BranchProtectionResult
  codeowners : CodeownersResult
deriving DecidableEq

structure LastCommitInfo where
  committerLogin : Option (EventString maxLogin)
  committerName : Option (EventString maxPersonName)
  commitDate : Option Timestamp
deriving DecidableEq

structure RepositoryEvidence where
  repository : Repository
  checks : RepositoryChecks
  lastCommit : Option LastCommitInfo
deriving DecidableEq

/-! ## Organisation state -/

/-- Coverage bounds of a collection; the limit is never zero. -/
inductive CollectionCoverage where
  | unknown
  | known (total : UInt32) (limit : { n : UInt64 // n ≠ 0 })
deriving DecidableEq

inductive TokenTier where
  | full | limited | unknown
deriving DecidableEq

inductive Capability where
  | orgSecretScanningAlerts | privateBranchProtectionRead
deriving DecidableEq

inductive AuthMode where
  | pat | gitHubApp | ghCliFallback | unknown
deriving DecidableEq

structure AssessmentMetadata where
  date : EventString maxAssessmentDate
  organization : EventString maxLogin
  schemaVersion : EventString maxSchemaVersion
  runTimestamp : EventString maxTimestampText
  runId : EventString maxRunId
  tokenTier : TokenTier
  tokenScopes : EventString maxTokenScopes
  authMode : AuthMode
  rateLimitWarnings : UInt32
  unavailableCapabilities : EventVec Capability maxUnavailableCapabilities
  inventoryFetchedAt : Option (EventString maxTimestampText)
  warmStart : Bool
  coverage : CollectionCoverage
deriving DecidableEq

inductive CollectionStatus where
  | success | notCollected | permissionDenied | transientError | unavailable
deriving DecidableEq

structure RepoAlertSummary where
  openAlertCount : UInt64
  oldestOpenAlertCreatedAt : Option (EventString maxTimestampText)
  newestOpenAlertCreatedAt : Option (EventString maxTimestampText)
deriving DecidableEq

structure RepoAlertSummaryEntry where
  repositoryId : EventString maxGithubId
  summary : RepoAlertSummary
deriving DecidableEq

structure StringU64Entry where
  key : EventString maxAlertBucket
  value : UInt64
deriving DecidableEq

structure OrgAlertSummary where
  collectionStatus : CollectionStatus
  collectionReason : Option (EventString maxReason)
  httpStatus : Option UInt16
  perRepo : EventVec RepoAlertSummaryEntry maxOrgAlertRepos
  openSecretAlertAgeBuckets : EventVec StringU64Entry maxAlertBuckets
  totalOpenSecretAlerts : UInt64
  oldestOpenSecretAlertCreatedAt : Option (EventString maxTimestampText)
  newestOpenSecretAlertCreatedAt : Option (EventString maxTimestampText)
deriving DecidableEq

structure OrgStateCaptured where
  archivedRepos : UInt32
  assessmentMetadata : AssessmentMetadata
  alertSummary : OrgAlertSummary
deriving DecidableEq

/-! ## Team state -/

inductive TeamMemberRoleEvent where
  | maintainer | member | unknown
deriving DecidableEq

inductive TeamRosterStatusEvent where
  | complete | deleted | permissionDenied | transientError
deriving DecidableEq

inductive OrgMembershipFetchStatus where
  | fetched | degraded
deriving DecidableEq

structure TeamMemberEvent where
  login : NonEmptyEventString maxLogin
  role : TeamMemberRoleEvent
  inOrg : Option Bool
deriving DecidableEq

structure OrphanAttributionInputs where
  orgMembershipFetchStatus : OrgMembershipFetchStatus
deriving DecidableEq

structure TeamStateCaptured where
  org : NonEmptyEventString maxLogin
  teamSlug : NonEmptyEventString maxLogin
  members : EventVec TeamMemberEvent maxTeamMembers
  orphanAttributionInputs : OrphanAttributionInputs
  fetchedAt : EventString maxTimestampText
  status : TeamRosterStatusEvent
deriving DecidableEq

/-! ## Domain events -/

inductive DomainEvent where
  | repositoryStateCaptured (domainKey : NonEmptyEventString maxDomainKey)
      (repoName : NonEmptyEventString maxRepoName) (timestamp : Timestamp)
      (evidence : Option RepositoryEvidence)
  | repositoryDeleted (domainKey : NonEmptyEventString maxDomainKey)
      (repoName : NonEmptyEventString maxRepoName) (detectedAt : Timestamp)
  | orgStateCaptured (org : OrgStateCaptured)
  | teamStateCaptured (team : TeamStateCaptured)
deriving DecidableEq

/-! ## Team keys -/

inductive TeamDomainKeyError where
  | emptyOrg | emptyTeamSlug
deriving DecidableEq

/-- The lowercase hexadecimal digit of a nibble. -/
def hexDigit (nibble : UInt8) : Char :=
  "0123456789abcdef".toList.getD nibble.toNat '0'

/-- The two hexadecimal digits of a byte, high nibble first. -/
def hexByte (byte : UInt8) : List Char :=
  [hexDigit (byte >>> 4), hexDigit (byte &&& 0x0f)]

/-- The token of a team: `team_` and the hex of `org`, a unit separator and `team_slug`. -/
def teamDomainKey (org teamSlug : String) : Except TeamDomainKeyError String :=
  if org.isEmpty then .error .emptyOrg
  else if teamSlug.isEmpty then .error .emptyTeamSlug
  else
    let joined := org.toUTF8.data.toList ++ 0x1F :: teamSlug.toUTF8.data.toList
    .ok ("team_" ++ String.ofList (joined.flatMap hexByte))

end GhReport.Event
