import GhReport.Event.Types

/-! # Event codecs

Records write their fields in declaration order and unions a tag byte followed
by the fields of the variant. Six codecs are written out by hand with their own
cursor. Every event decodes back from its bytes and uses exactly those bytes.
-/

namespace GhReport.Event

open ByteCodec Pardosa Limits

/-- A one-byte enumeration; the discriminants are those of the type's declaration. -/
def pardosaEnum {α : Type} [DecidableEq α] (variants : List (α × UInt8)) : EventCodec α :=
  discriminants (.truncatedPayload 1 0) (fun x => .unknownVariantDiscriminant x.toUInt32) variants

/-- A union whose variants all carry named fields. -/
def nativeSecretEnum (P : Primitives) {E : Type} (write : E → Write EncodeError)
    (read : UInt8 → Option (List UInt8 → ℕ → Except DecodeError (E × ℕ))) : EventCodec E :=
  tagged P.u8 (fun x => .unknownVariantDiscriminant x.toUInt32) write read

/-- The fields of one variant or record of the event vocabulary. -/
abbrev EventFields (S α : Type) := Fields EncodeError DecodeError S α

/-! ## One-byte enumerations -/

def Visibility.codec : EventCodec Visibility :=
  pardosaEnum [(.«public», 0), (.internal, 1), (.«private», 2)]

def IndeterminateReason.codec : EventCodec IndeterminateReason :=
  pardosaEnum [(.permissionDenied, 0), (.permissionSuspected, 1), (.transient, 2),
    (.rateLimited, 3), (.invalid, 4), (.pending, 5)]

def SecretScanningFailureReason.codec : EventCodec SecretScanningFailureReason :=
  pardosaEnum [(.permissionDenied, 0), (.permissionSuspected, 1), (.rateLimited, 2),
    (.transient, 3), (.unavailable, 4), (.insufficientEvidence, 5), (.conflict, 6), (.invalid, 7),
    (.pending, 8)]

def ProbeSource.codec : EventCodec ProbeSource :=
  pardosaEnum [(.orgSummary, 0), (.perRepoEndpoint, 1)]

def DependabotStatus.codec : EventCodec DependabotStatus :=
  pardosaEnum [(.enabled, 0), (.paused, 1), (.disabled, 2), (.unknown, 3)]

def CodeownersNonConformingLocation.codec : EventCodec CodeownersNonConformingLocation :=
  pardosaEnum [(.root, 0), (.docs, 1)]

def CodeownersTruncationReason.codec : EventCodec CodeownersTruncationReason :=
  pardosaEnum [(.notBase64Encoded, 0), (.oversizedBase64, 1), (.contentMissing, 2),
    (.decodeFailed, 3), (.invalidUtf8, 4)]

def TokenTier.codec : EventCodec TokenTier :=
  pardosaEnum [(.full, 0), (.limited, 1), (.unknown, 2)]

def Capability.codec : EventCodec Capability :=
  pardosaEnum [(.orgSecretScanningAlerts, 0), (.privateBranchProtectionRead, 1)]

def AuthMode.codec : EventCodec AuthMode :=
  pardosaEnum [(.pat, 0), (.gitHubApp, 1), (.ghCliFallback, 2), (.unknown, 3)]

def CollectionStatus.codec : EventCodec CollectionStatus :=
  pardosaEnum [(.success, 0), (.notCollected, 1), (.permissionDenied, 2), (.transientError, 3),
    (.unavailable, 4)]

def TeamMemberRoleEvent.codec : EventCodec TeamMemberRoleEvent :=
  pardosaEnum [(.maintainer, 0), (.member, 1), (.unknown, 2)]

def TeamRosterStatusEvent.codec : EventCodec TeamRosterStatusEvent :=
  pardosaEnum [(.complete, 0), (.deleted, 1), (.permissionDenied, 2), (.transientError, 3)]

def OrgMembershipFetchStatus.codec : EventCodec OrgMembershipFetchStatus :=
  pardosaEnum [(.fetched, 0), (.degraded, 1)]

/-! ## Records and unions -/

section Codecs

variable (P : Primitives)

def LastCommitInfo.codec : EventCodec LastCommitInfo :=
  (Fields.of mk
    |>.field committerLogin (P.option (P.eventString maxLogin))
    |>.field committerName (P.option (P.eventString maxPersonName))
    |>.field commitDate (P.option P.timestamp)).struct

def Repository.codec : EventCodec Repository :=
  (Fields.of mk
    |>.field id (P.nonEmptyEventString maxGithubId)
    |>.field nodeId (P.option (P.eventString maxNodeId))
    |>.field name (P.nonEmptyEventString maxRepoName)
    |>.field visibility Visibility.codec
    |>.field language (P.option (P.eventString maxLanguage))
    |>.field defaultBranch (P.nonEmptyEventString maxBranchName)
    |>.field archived P.bool
    |>.field inventoryKey (P.nonEmptyEventString maxDomainKey)
    |>.field updatedAt (P.option (P.nonEmptyEventString maxTimestampText))
    |>.field hasIssues P.bool
    |>.field pushedAt (P.option P.timestamp)
    |>.field createdAt (P.option P.timestamp)
    |>.field description (P.option (P.eventString maxDescription))
    |>.field fork P.bool
    |>.field isEmpty P.bool
    |>.field htmlUrl (P.option (P.eventString maxUrl))
    |>.field topics (P.eventVec (P.eventString maxTopic) maxTopics)
    |>.field licenseSpdx (P.option (P.eventString maxLicense))).struct

def SecurityPolicyResult.codec : EventCodec SecurityPolicyResult where
  encode v buf := do
    let (timestamp, buf) ← match v with
      | enabledBySetting timestamp => do
        let buf ← push 0 buf
        .ok (timestamp, buf)
      | enabledByFile path timestamp => do
        let buf ← push 1 buf
        let buf ← (P.nonEmptyEventString maxPath).encode path buf
        .ok (timestamp, buf)
      | absent timestamp => do
        let buf ← push 2 buf
        .ok (timestamp, buf)
      | unobservable reason timestamp => do
        let buf ← push 3 buf
        let buf ← IndeterminateReason.codec.encode reason buf
        .ok (timestamp, buf)
      | notApplicable timestamp => do
        let buf ← push 4 buf
        .ok (timestamp, buf)
    P.timestamp.encode timestamp buf
  decode buf := do
    let (tag, cursor) ← P.u8.decode buf
    if tag = 0 ∨ tag = 2 ∨ tag = 4 then
      let (timestamp, consumed) ← P.timestamp.decode (buf.drop cursor)
      let cursor := cursor + consumed
      if tag = 0 then .ok (enabledBySetting timestamp, cursor)
      else if tag = 2 then .ok (absent timestamp, cursor)
      else .ok (notApplicable timestamp, cursor)
    else if tag = 1 then
      let (path, consumed) ← (P.nonEmptyEventString maxPath).decode (buf.drop cursor)
      let cursor := cursor + consumed
      let (timestamp, consumed) ← P.timestamp.decode (buf.drop cursor)
      .ok (enabledByFile path timestamp, cursor + consumed)
    else if tag = 3 then
      let (reason, consumed) ← IndeterminateReason.codec.decode (buf.drop cursor)
      let cursor := cursor + consumed
      let (timestamp, consumed) ← P.timestamp.decode (buf.drop cursor)
      .ok (unobservable reason timestamp, cursor + consumed)
    else .error (.unknownVariantDiscriminant tag.toUInt32)


def MetadataUnavailable.missingFields : EventFields (Option UInt16) MetadataUnavailable :=
  Fields.of .missing |>.field id (P.option P.u16)

def MetadataUnavailable.malformedFields : EventFields (Option UInt16) MetadataUnavailable :=
  Fields.of .malformed |>.field id (P.option P.u16)

def MetadataUnavailable.failureFields :
    EventFields (SecretScanningFailureReason × Option UInt16) MetadataUnavailable :=
  Fields.of .failure |>.field (·.1) SecretScanningFailureReason.codec
    |>.field (·.2) (P.option P.u16)

def MetadataUnavailable.codec : EventCodec MetadataUnavailable :=
  nativeSecretEnum P
    (fun v => match v with
      | .missing httpStatus => variant 0 (missingFields P) httpStatus
      | .malformed httpStatus => variant 1 (malformedFields P) httpStatus
      | .failure reason httpStatus => variant 2 (failureFields P) (reason, httpStatus))
    (fun tag => match tag with
      | 0 => some (missingFields P).decode
      | 1 => some (malformedFields P).decode
      | 2 => some (failureFields P).decode
      | _ => none)

def SecretScanningAlerts.observableFields :
    EventFields (ProbeSource × Bool × Option UInt16) SecretScanningAlerts :=
  Fields.of .observable |>.field (·.1) ProbeSource.codec |>.field (·.2.1) P.bool
    |>.field (·.2.2) (P.option P.u16)

def SecretScanningAlerts.unobservableFields :
    EventFields (ProbeSource × SecretScanningFailureReason × Option UInt16) SecretScanningAlerts :=
  Fields.of .unobservable |>.field (·.1) ProbeSource.codec
    |>.field (·.2.1) SecretScanningFailureReason.codec |>.field (·.2.2) (P.option P.u16)

def SecretScanningAlerts.codec : EventCodec SecretScanningAlerts :=
  nativeSecretEnum P
    (fun v => match v with
      | .observable source hasOpenAlerts httpStatus =>
        variant 0 (observableFields P) (source, hasOpenAlerts, httpStatus)
      | .unobservable source reason httpStatus =>
        variant 1 (unobservableFields P) (source, reason, httpStatus))
    (fun tag => match tag with
      | 0 => some (observableFields P).decode
      | 1 => some (unobservableFields P).decode
      | _ => none)

def EnabledProvenance.metadataFields :
    EventFields (Option UInt16 × SecretScanningAlerts) EnabledProvenance :=
  Fields.of .metadata |>.field (·.1) (P.option P.u16)
    |>.field (·.2) (SecretScanningAlerts.codec P)

def EnabledProvenance.fallbackFields :
    EventFields (MetadataUnavailable × Bool × Option UInt16) EnabledProvenance :=
  Fields.of .fallback |>.field (·.1) (MetadataUnavailable.codec P) |>.field (·.2.1) P.bool
    |>.field (·.2.2) (P.option P.u16)

def EnabledProvenance.codec : EventCodec EnabledProvenance :=
  nativeSecretEnum P
    (fun v => match v with
      | .metadata httpStatus alerts => variant 0 (metadataFields P) (httpStatus, alerts)
      | .fallback cause hasOpenAlerts httpStatus =>
        variant 1 (fallbackFields P) (cause, hasOpenAlerts, httpStatus))
    (fun tag => match tag with
      | 0 => some (metadataFields P).decode
      | 1 => some (fallbackFields P).decode
      | _ => none)

def DisabledObservation.noMismatchFields :
    EventFields (ProbeSource × Option UInt16) DisabledObservation :=
  Fields.of .noMismatch |>.field (·.1) ProbeSource.codec |>.field (·.2) (P.option P.u16)

def DisabledObservation.statusMismatchFields :
    EventFields (ProbeSource × Option UInt16) DisabledObservation :=
  Fields.of .statusMismatch |>.field (·.1) ProbeSource.codec |>.field (·.2) (P.option P.u16)

def DisabledObservation.probeFailedFields :
    EventFields (ProbeSource × SecretScanningFailureReason × Option UInt16) DisabledObservation :=
  Fields.of .probeFailed |>.field (·.1) ProbeSource.codec
    |>.field (·.2.1) SecretScanningFailureReason.codec |>.field (·.2.2) (P.option P.u16)

def DisabledObservation.codec : EventCodec DisabledObservation :=
  nativeSecretEnum P
    (fun v => match v with
      | .noMismatch source httpStatus => variant 0 (noMismatchFields P) (source, httpStatus)
      | .statusMismatch source httpStatus => variant 1 (statusMismatchFields P) (source, httpStatus)
      | .probeFailed source reason httpStatus =>
        variant 2 (probeFailedFields P) (source, reason, httpStatus))
    (fun tag => match tag with
      | 0 => some (noMismatchFields P).decode
      | 1 => some (statusMismatchFields P).decode
      | 2 => some (probeFailedFields P).decode
      | _ => none)

def UnobservableProbe.failedFields :
    EventFields (ProbeSource × SecretScanningFailureReason × Option UInt16) UnobservableProbe :=
  Fields.of .failed |>.field (·.1) ProbeSource.codec
    |>.field (·.2.1) SecretScanningFailureReason.codec |>.field (·.2.2) (P.option P.u16)

def UnobservableProbe.orgSummaryObservedFields :
    EventFields (Bool × Option UInt16) UnobservableProbe :=
  Fields.of .orgSummaryObserved |>.field (·.1) P.bool |>.field (·.2) (P.option P.u16)

def UnobservableProbe.codec : EventCodec UnobservableProbe :=
  nativeSecretEnum P
    (fun v => match v with
      | .failed source reason httpStatus => variant 0 (failedFields P) (source, reason, httpStatus)
      | .orgSummaryObserved hasOpenAlerts httpStatus =>
        variant 1 (orgSummaryObservedFields P) (hasOpenAlerts, httpStatus))
    (fun tag => match tag with
      | 0 => some (failedFields P).decode
      | 1 => some (orgSummaryObservedFields P).decode
      | _ => none)

def SecretScanningResult.enabledFields :
    EventFields (EnabledProvenance × Timestamp) SecretScanningResult :=
  Fields.of .enabled |>.field (·.1) (EnabledProvenance.codec P) |>.field (·.2) P.timestamp

def SecretScanningResult.disabledFields :
    EventFields (Option UInt16 × DisabledObservation × Timestamp) SecretScanningResult :=
  Fields.of .disabled |>.field (·.1) (P.option P.u16)
    |>.field (·.2.1) (DisabledObservation.codec P) |>.field (·.2.2) P.timestamp

def SecretScanningResult.unobservableFields :
    EventFields (MetadataUnavailable × UnobservableProbe × Timestamp) SecretScanningResult :=
  Fields.of .unobservable |>.field (·.1) (MetadataUnavailable.codec P)
    |>.field (·.2.1) (UnobservableProbe.codec P) |>.field (·.2.2) P.timestamp

def SecretScanningResult.codec : EventCodec SecretScanningResult :=
  nativeSecretEnum P
    (fun v => match v with
      | .enabled provenance timestamp => variant 0 (enabledFields P) (provenance, timestamp)
      | .disabled metadataHttpStatus observation timestamp =>
        variant 1 (disabledFields P) (metadataHttpStatus, observation, timestamp)
      | .unobservable metadata probe timestamp =>
        variant 2 (unobservableFields P) (metadata, probe, timestamp))
    (fun tag => match tag with
      | 0 => some (enabledFields P).decode
      | 1 => some (disabledFields P).decode
      | 2 => some (unobservableFields P).decode
      | _ => none)

def DependabotResult.codec : EventCodec DependabotResult :=
  (Fields.of mk
    |>.field status DependabotStatus.codec
    |>.field reason (P.option (P.eventString maxReason))
    |>.field timestamp P.timestamp).struct

def HistoryProtectionGap.absentFields : EventFields (Bool × Option UInt16) HistoryProtectionGap :=
  Fields.of .absent |>.field (·.1) P.bool |>.field (·.2) (P.option P.u16)

def HistoryProtectionGap.neitherBlockedFields : EventFields Unit HistoryProtectionGap :=
  Fields.of .neitherBlocked

def HistoryProtectionGap.forcePushAllowedFields : EventFields Unit HistoryProtectionGap :=
  Fields.of .forcePushAllowed

def HistoryProtectionGap.deletionAllowedFields : EventFields Unit HistoryProtectionGap :=
  Fields.of .deletionAllowed

def HistoryProtectionGap.codec : EventCodec HistoryProtectionGap :=
  nativeSecretEnum P
    (fun v => match v with
      | .absent confirmedNotFound httpStatus =>
        variant 0 (absentFields P) (confirmedNotFound, httpStatus)
      | .neitherBlocked => variant 1 neitherBlockedFields ()
      | .forcePushAllowed => variant 2 forcePushAllowedFields ()
      | .deletionAllowed => variant 3 deletionAllowedFields ())
    (fun tag => match tag with
      | 0 => some (absentFields P).decode
      | 1 => some neitherBlockedFields.decode
      | 2 => some forcePushAllowedFields.decode
      | 3 => some deletionAllowedFields.decode
      | _ => none)

def BranchProtectionResult.protectedFields :
    EventFields (NonEmptyEventString maxBranchName × Timestamp) BranchProtectionResult :=
  Fields.of .«protected» |>.field (·.1) (P.nonEmptyEventString maxBranchName)
    |>.field (·.2) P.timestamp

def BranchProtectionResult.unprotectedFields :
    EventFields (NonEmptyEventString maxBranchName × HistoryProtectionGap × Timestamp)
      BranchProtectionResult :=
  Fields.of .unprotected |>.field (·.1) (P.nonEmptyEventString maxBranchName)
    |>.field (·.2.1) (HistoryProtectionGap.codec P) |>.field (·.2.2) P.timestamp

def BranchProtectionResult.unobservableFields :
    EventFields
      (NonEmptyEventString maxBranchName × IndeterminateReason × Option UInt16 × Timestamp)
      BranchProtectionResult :=
  Fields.of .unobservable |>.field (·.1) (P.nonEmptyEventString maxBranchName)
    |>.field (·.2.1) IndeterminateReason.codec |>.field (·.2.2.1) (P.option P.u16)
    |>.field (·.2.2.2) P.timestamp

def BranchProtectionResult.codec : EventCodec BranchProtectionResult :=
  nativeSecretEnum P
    (fun v => match v with
      | .«protected» defaultBranch timestamp =>
        variant 0 (protectedFields P) (defaultBranch, timestamp)
      | .unprotected defaultBranch gap timestamp =>
        variant 1 (unprotectedFields P) (defaultBranch, gap, timestamp)
      | .unobservable defaultBranch reason httpStatus timestamp =>
        variant 2 (unobservableFields P) (defaultBranch, reason, httpStatus, timestamp))
    (fun tag => match tag with
      | 0 => some (protectedFields P).decode
      | 1 => some (unprotectedFields P).decode
      | 2 => some (unobservableFields P).decode
      | _ => none)

def CodeownersEntry.codec : EventCodec CodeownersEntry :=
  (Fields.of mk
    |>.field pattern (P.eventString maxCodeownersPattern)
    |>.field owners (P.eventVec (P.eventString maxCodeownersOwner) maxCodeownersOwners)).struct

def ParsedCodeowners.codec : EventCodec ParsedCodeowners :=
  (Fields.of mk
    |>.field entries (P.eventVec (CodeownersEntry.codec P) maxCodeownersEntries)
    |>.field uniqueOwners (P.eventVec (P.eventString maxCodeownersOwner) maxCodeownersOwners)
    |>.field skippedLines P.u32).struct

def CodeownersContent.codec : EventCodec CodeownersContent where
  encode v buf := match v with
    | parsed value => do
      let buf ← push 0 buf
      (ParsedCodeowners.codec P).encode value buf
    | truncated reason => do
      let buf ← push 1 buf
      CodeownersTruncationReason.codec.encode reason buf
    | unparsed => push 2 buf
  decode buf := do
    let (tag, _) ← P.u8.decode buf
    if tag = 0 then
      let (value, n) ← (ParsedCodeowners.codec P).decode (buf.drop 1)
      .ok (parsed value, 1 + n)
    else if tag = 1 then
      let (reason, n) ← CodeownersTruncationReason.codec.decode (buf.drop 1)
      .ok (truncated reason, 1 + n)
    else if tag = 2 then .ok (unparsed, 1)
    else .error (.unknownVariantDiscriminant tag.toUInt32)


def CodeownersResult.codec : EventCodec CodeownersResult where
  encode v buf := do
    let (timestamp, buf) ← match v with
      | conforming content timestamp => do
        let buf ← push 0 buf
        let buf ← (CodeownersContent.codec P).encode content buf
        .ok (timestamp, buf)
      | nonConforming location content timestamp => do
        let buf ← push 1 buf
        let buf ← CodeownersNonConformingLocation.codec.encode location buf
        let buf ← (CodeownersContent.codec P).encode content buf
        .ok (timestamp, buf)
      | absent timestamp => do
        let buf ← push 2 buf
        .ok (timestamp, buf)
      | unobservable reason timestamp => do
        let buf ← push 3 buf
        let buf ← IndeterminateReason.codec.encode reason buf
        .ok (timestamp, buf)
    P.timestamp.encode timestamp buf
  decode buf := do
    let (tag, cursor) ← P.u8.decode buf
    let (location, cursor) ←
      if tag = 1 then do
        let (value, n) ← CodeownersNonConformingLocation.codec.decode (buf.drop cursor)
        .ok (some value, cursor + n)
      else .ok (none, cursor)
    if tag = 0 ∨ tag = 1 then
      let (content, n) ← (CodeownersContent.codec P).decode (buf.drop cursor)
      let cursor := cursor + n
      let (timestamp, n) ← P.timestamp.decode (buf.drop cursor)
      match location with
      | some location => .ok (nonConforming location content timestamp, cursor + n)
      | none => .ok (conforming content timestamp, cursor + n)
    else if tag = 2 then
      let (timestamp, n) ← P.timestamp.decode (buf.drop cursor)
      .ok (absent timestamp, cursor + n)
    else if tag = 3 then
      let (reason, n) ← IndeterminateReason.codec.decode (buf.drop cursor)
      let cursor := cursor + n
      let (timestamp, n) ← P.timestamp.decode (buf.drop cursor)
      .ok (unobservable reason timestamp, cursor + n)
    else .error (.unknownVariantDiscriminant tag.toUInt32)


def RepositoryChecks.codec : EventCodec RepositoryChecks :=
  (Fields.of mk
    |>.field securityPolicy (SecurityPolicyResult.codec P)
    |>.field secretScanning (SecretScanningResult.codec P)
    |>.field dependabotSecurityUpdates (DependabotResult.codec P)
    |>.field branchProtection (BranchProtectionResult.codec P)
    |>.field codeowners (CodeownersResult.codec P)).struct

def RepositoryEvidence.codec : EventCodec RepositoryEvidence :=
  (Fields.of mk
    |>.field repository (Repository.codec P)
    |>.field checks (RepositoryChecks.codec P)
    |>.field lastCommit (P.option (LastCommitInfo.codec P))).struct

def CollectionCoverage.codec : EventCodec CollectionCoverage where
  encode v buf := match v with
    | unknown => push 0 buf
    | known total limit => do
      let buf ← push 1 buf
      let buf ← P.u32.encode total buf
      P.u64.encode limit.1 buf
  decode buf := match buf with
    | [] => .error (.truncatedPayload 1 0)
    | tag :: _ =>
      if tag = 0 then .ok (unknown, 1)
      else if tag = 1 then do
        let cursor := 1
        let (total, c) ← P.u32.decode (buf.drop cursor)
        let cursor := cursor + c
        let (rawLimit, c) ← P.u64.decode (buf.drop cursor)
        if h : rawLimit ≠ 0 then .ok (known total ⟨rawLimit, h⟩, cursor + c)
        else .error (.unknownVariantDiscriminant 0)
      else .error (.unknownVariantDiscriminant tag.toUInt32)


def AssessmentMetadata.codec : EventCodec AssessmentMetadata :=
  (Fields.of mk
    |>.field date (P.eventString maxAssessmentDate)
    |>.field organization (P.eventString maxLogin)
    |>.field schemaVersion (P.eventString maxSchemaVersion)
    |>.field runTimestamp (P.eventString maxTimestampText)
    |>.field runId (P.eventString maxRunId)
    |>.field tokenTier TokenTier.codec
    |>.field tokenScopes (P.eventString maxTokenScopes)
    |>.field authMode AuthMode.codec
    |>.field rateLimitWarnings P.u32
    |>.field unavailableCapabilities (P.eventVec Capability.codec maxUnavailableCapabilities)
    |>.field inventoryFetchedAt (P.option (P.eventString maxTimestampText))
    |>.field warmStart P.bool
    |>.field coverage (CollectionCoverage.codec P)).struct

def RepoAlertSummary.codec : EventCodec RepoAlertSummary :=
  (Fields.of mk
    |>.field openAlertCount P.u64
    |>.field oldestOpenAlertCreatedAt (P.option (P.eventString maxTimestampText))
    |>.field newestOpenAlertCreatedAt (P.option (P.eventString maxTimestampText))).struct

def RepoAlertSummaryEntry.codec : EventCodec RepoAlertSummaryEntry :=
  (Fields.of mk
    |>.field repositoryId (P.eventString maxGithubId)
    |>.field summary (RepoAlertSummary.codec P)).struct

def StringU64Entry.codec : EventCodec StringU64Entry :=
  (Fields.of mk
    |>.field key (P.eventString maxAlertBucket)
    |>.field value P.u64).struct

def OrgAlertSummary.codec : EventCodec OrgAlertSummary :=
  (Fields.of mk
    |>.field collectionStatus CollectionStatus.codec
    |>.field collectionReason (P.option (P.eventString maxReason))
    |>.field httpStatus (P.option P.u16)
    |>.field perRepo (P.eventVec (RepoAlertSummaryEntry.codec P) maxOrgAlertRepos)
    |>.field openSecretAlertAgeBuckets (P.eventVec (StringU64Entry.codec P) maxAlertBuckets)
    |>.field totalOpenSecretAlerts P.u64
    |>.field oldestOpenSecretAlertCreatedAt (P.option (P.eventString maxTimestampText))
    |>.field newestOpenSecretAlertCreatedAt (P.option (P.eventString maxTimestampText))).struct

def OrgStateCaptured.codec : EventCodec OrgStateCaptured :=
  (Fields.of mk
    |>.field archivedRepos P.u32
    |>.field assessmentMetadata (AssessmentMetadata.codec P)
    |>.field alertSummary (OrgAlertSummary.codec P)).struct

def TeamMemberEvent.codec : EventCodec TeamMemberEvent :=
  (Fields.of mk
    |>.field login (P.nonEmptyEventString maxLogin)
    |>.field role TeamMemberRoleEvent.codec
    |>.field inOrg (P.option P.bool)).struct

def OrphanAttributionInputs.codec : EventCodec OrphanAttributionInputs :=
  (Fields.of mk
    |>.field orgMembershipFetchStatus OrgMembershipFetchStatus.codec).struct

def TeamStateCaptured.codec : EventCodec TeamStateCaptured :=
  (Fields.of mk
    |>.field org (P.nonEmptyEventString maxLogin)
    |>.field teamSlug (P.nonEmptyEventString maxLogin)
    |>.field members (P.eventVec (TeamMemberEvent.codec P) maxTeamMembers)
    |>.field orphanAttributionInputs OrphanAttributionInputs.codec
    |>.field fetchedAt (P.eventString maxTimestampText)
    |>.field status TeamRosterStatusEvent.codec).struct

def SweepTimeoutEvent.codec : EventCodec SweepTimeoutEvent where
  encode v buf := match v with
    | targetOpened eventId => do
      let buf ← push 0 buf
      P.uuid.encode eventId buf
    | timeoutFired eventId runId error elapsedMs => do
      let buf ← push 1 buf
      let buf ← P.uuid.encode eventId buf
      let buf ← (P.eventString maxRunId).encode runId buf
      let buf ← (P.eventString maxSweepTimeoutError).encode error buf
      P.u64.encode elapsedMs buf
  decode buf := match buf with
    | [] => .error (.truncatedPayload 1 0)
    | tag :: _ =>
      let cursor := 1
      if tag = 0 then do
        let (eventId, c) ← P.uuid.decode (buf.drop cursor)
        .ok (targetOpened eventId, cursor + c)
      else if tag = 1 then do
        let (eventId, c) ← P.uuid.decode (buf.drop cursor)
        let cursor := cursor + c
        let (runId, c) ← (P.eventString maxRunId).decode (buf.drop cursor)
        let cursor := cursor + c
        let (error, c) ← (P.eventString maxSweepTimeoutError).decode (buf.drop cursor)
        let cursor := cursor + c
        let (elapsedMs, c) ← P.u64.decode (buf.drop cursor)
        .ok (timeoutFired eventId runId error elapsedMs, cursor + c)
      else .error (.unknownVariantDiscriminant tag.toUInt32)


def DomainEvent.codec : EventCodec DomainEvent where
  encode v buf := match v with
    | repositoryStateCaptured domainKey repoName timestamp evidence => do
      let buf ← push 0 buf
      let buf ← (P.nonEmptyEventString maxDomainKey).encode domainKey buf
      let buf ← (P.nonEmptyEventString maxRepoName).encode repoName buf
      let buf ← P.timestamp.encode timestamp buf
      (P.option (RepositoryEvidence.codec P)).encode evidence buf
    | repositoryDeleted domainKey repoName detectedAt => do
      let buf ← push 1 buf
      let buf ← (P.nonEmptyEventString maxDomainKey).encode domainKey buf
      let buf ← (P.nonEmptyEventString maxRepoName).encode repoName buf
      P.timestamp.encode detectedAt buf
    | orgStateCaptured org => do
      let buf ← push 2 buf
      (OrgStateCaptured.codec P).encode org buf
    | teamStateCaptured team => do
      let buf ← push 3 buf
      (TeamStateCaptured.codec P).encode team buf
  decode buf := match buf with
    | [] => .error (.truncatedPayload 1 0)
    | tag :: _ =>
      let cursor := 1
      if tag = 0 then do
        let (domainKey, c) ← (P.nonEmptyEventString maxDomainKey).decode (buf.drop cursor)
        let cursor := cursor + c
        let (repoName, c) ← (P.nonEmptyEventString maxRepoName).decode (buf.drop cursor)
        let cursor := cursor + c
        let (timestamp, c) ← P.timestamp.decode (buf.drop cursor)
        let cursor := cursor + c
        let (evidence, c) ← (P.option (RepositoryEvidence.codec P)).decode (buf.drop cursor)
        .ok (repositoryStateCaptured domainKey repoName timestamp evidence, cursor + c)
      else if tag = 1 then do
        let (domainKey, c) ← (P.nonEmptyEventString maxDomainKey).decode (buf.drop cursor)
        let cursor := cursor + c
        let (repoName, c) ← (P.nonEmptyEventString maxRepoName).decode (buf.drop cursor)
        let cursor := cursor + c
        let (detectedAt, c) ← P.timestamp.decode (buf.drop cursor)
        .ok (repositoryDeleted domainKey repoName detectedAt, cursor + c)
      else if tag = 2 then do
        let (org, c) ← (OrgStateCaptured.codec P).decode (buf.drop cursor)
        .ok (orgStateCaptured org, cursor + c)
      else if tag = 3 then do
        let (team, c) ← (TeamStateCaptured.codec P).decode (buf.drop cursor)
        .ok (teamStateCaptured team, cursor + c)
      else .error (.unknownVariantDiscriminant tag.toUInt32)


end Codecs

end GhReport.Event
