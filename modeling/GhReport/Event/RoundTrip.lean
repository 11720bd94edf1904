import GhReport.Event.Codec
import GhReport.Pardosa.Canonical

/-! # Round trip of the event codecs

Every codec of the vocabulary is lawful once the primitive codecs are, so each
event decodes from its bytes in front of any suffix and reports their length.
-/

namespace GhReport.Event

open ByteCodec Pardosa Limits

/-! ## One-byte enumerations -/

theorem Visibility.codec_lawful : Visibility.codec.Lawful :=
  discriminants_lawful fun v => by cases v <;> exact ⟨_, rfl, rfl⟩

theorem IndeterminateReason.codec_lawful : IndeterminateReason.codec.Lawful :=
  discriminants_lawful fun v => by cases v <;> exact ⟨_, rfl, rfl⟩

theorem SecretScanningFailureReason.codec_lawful : SecretScanningFailureReason.codec.Lawful :=
  discriminants_lawful fun v => by cases v <;> exact ⟨_, rfl, rfl⟩

theorem ProbeSource.codec_lawful : ProbeSource.codec.Lawful :=
  discriminants_lawful fun v => by cases v <;> exact ⟨_, rfl, rfl⟩

theorem DependabotStatus.codec_lawful : DependabotStatus.codec.Lawful :=
  discriminants_lawful fun v => by cases v <;> exact ⟨_, rfl, rfl⟩

theorem CodeownersNonConformingLocation.codec_lawful :
    CodeownersNonConformingLocation.codec.Lawful :=
  discriminants_lawful fun v => by cases v <;> exact ⟨_, rfl, rfl⟩

theorem CodeownersTruncationReason.codec_lawful : CodeownersTruncationReason.codec.Lawful :=
  discriminants_lawful fun v => by cases v <;> exact ⟨_, rfl, rfl⟩

theorem TokenTier.codec_lawful : TokenTier.codec.Lawful :=
  discriminants_lawful fun v => by cases v <;> exact ⟨_, rfl, rfl⟩

theorem Capability.codec_lawful : Capability.codec.Lawful :=
  discriminants_lawful fun v => by cases v <;> exact ⟨_, rfl, rfl⟩

theorem AuthMode.codec_lawful : AuthMode.codec.Lawful :=
  discriminants_lawful fun v => by cases v <;> exact ⟨_, rfl, rfl⟩

theorem CollectionStatus.codec_lawful : CollectionStatus.codec.Lawful :=
  discriminants_lawful fun v => by cases v <;> exact ⟨_, rfl, rfl⟩

theorem TeamMemberRoleEvent.codec_lawful : TeamMemberRoleEvent.codec.Lawful :=
  discriminants_lawful fun v => by cases v <;> exact ⟨_, rfl, rfl⟩

theorem TeamRosterStatusEvent.codec_lawful : TeamRosterStatusEvent.codec.Lawful :=
  discriminants_lawful fun v => by cases v <;> exact ⟨_, rfl, rfl⟩

theorem OrgMembershipFetchStatus.codec_lawful : OrgMembershipFetchStatus.codec.Lawful :=
  discriminants_lawful fun v => by cases v <;> exact ⟨_, rfl, rfl⟩

theorem OrphanAttributionInputs.codec_lawful : OrphanAttributionInputs.codec.Lawful :=
  (Fields.lawful_of _ |>.field OrgMembershipFetchStatus.codec_lawful).struct fun _ => rfl

/-! ## Records and unions -/

section Lawful

variable {P : Primitives}

theorem LastCommitInfo.codec_lawful (hP : P.Lawful) : (LastCommitInfo.codec P).Lawful :=
  (Fields.lawful_of _ |>.field (hP.option (hP.eventString _))
    |>.field (hP.option (hP.eventString _)) |>.field (hP.option hP.timestamp)).struct fun _ => rfl

theorem Repository.codec_lawful (hP : P.Lawful) : (Repository.codec P).Lawful :=
  (Fields.lawful_of _ |>.field (hP.nonEmptyEventString _) |>.field (hP.option (hP.eventString _))
    |>.field (hP.nonEmptyEventString _) |>.field Visibility.codec_lawful
    |>.field (hP.option (hP.eventString _)) |>.field (hP.nonEmptyEventString _) |>.field hP.bool
    |>.field (hP.nonEmptyEventString _) |>.field (hP.option (hP.nonEmptyEventString _))
    |>.field hP.bool |>.field (hP.option hP.timestamp) |>.field (hP.option hP.timestamp)
    |>.field (hP.option (hP.eventString _)) |>.field hP.bool |>.field hP.bool
    |>.field (hP.option (hP.eventString _)) |>.field (hP.eventVec (hP.eventString _) _)
    |>.field (hP.option (hP.eventString _))).struct fun _ => rfl

theorem SecurityPolicyResult.codec_lawful (hP : P.Lawful) :
    (SecurityPolicyResult.codec P).Lawful := by
  intro v
  cases v with
  | enabledBySetting timestamp =>
    obtain ⟨t, wt, rt⟩ := hP.timestamp timestamp
    exact ⟨0 :: t, fun buf => by simp [codec, push, wt _],
      fun s => by simp [codec, hP.u8 _, rt _, Nat.add_comm]⟩
  | enabledByFile path timestamp =>
    obtain ⟨p, wp, rp⟩ := hP.nonEmptyEventString _ path
    obtain ⟨t, wt, rt⟩ := hP.timestamp timestamp
    exact ⟨1 :: (p ++ t), fun buf => by simp [codec, push, wp _, wt _],
      fun s => by simp [codec, hP.u8 _, rp _, rt _]; omega⟩
  | absent timestamp =>
    obtain ⟨t, wt, rt⟩ := hP.timestamp timestamp
    exact ⟨2 :: t, fun buf => by simp [codec, push, wt _],
      fun s => by simp [codec, hP.u8 _, rt _, Nat.add_comm]⟩
  | unobservable reason timestamp =>
    obtain ⟨r, wr, rr⟩ := IndeterminateReason.codec_lawful reason
    obtain ⟨t, wt, rt⟩ := hP.timestamp timestamp
    exact ⟨3 :: (r ++ t), fun buf => by simp [codec, push, wr _, wt _],
      fun s => by simp [codec, hP.u8 _, rr _, rt _]; omega⟩
  | notApplicable timestamp =>
    obtain ⟨t, wt, rt⟩ := hP.timestamp timestamp
    exact ⟨4 :: t, fun buf => by simp [codec, push, wt _],
      fun s => by simp [codec, hP.u8 _, rt _, Nat.add_comm]⟩


theorem MetadataUnavailable.codec_lawful (hP :
    P.Lawful) : (MetadataUnavailable.codec P).Lawful := by
  refine tagged_lawful hP.u8 fun v => ?_
  cases v with
  | missing httpStatus =>
    exact .intro 0 (missingFields P) httpStatus
      (Fields.lawful_of _ |>.field (hP.option hP.u16)) rfl rfl rfl
  | malformed httpStatus =>
    exact .intro 1 (malformedFields P) httpStatus
      (Fields.lawful_of _ |>.field (hP.option hP.u16)) rfl rfl rfl
  | failure reason httpStatus =>
    exact .intro 2 (failureFields P) (reason, httpStatus) (Fields.lawful_of _
      |>.field SecretScanningFailureReason.codec_lawful |>.field (hP.option hP.u16)) rfl rfl rfl

theorem SecretScanningAlerts.codec_lawful (hP :
    P.Lawful) : (SecretScanningAlerts.codec P).Lawful := by
  refine tagged_lawful hP.u8 fun v => ?_
  cases v with
  | observable source hasOpenAlerts httpStatus =>
    exact .intro 0 (observableFields P) (source, hasOpenAlerts, httpStatus) (Fields.lawful_of _
      |>.field ProbeSource.codec_lawful |>.field hP.bool |>.field (hP.option hP.u16)) rfl rfl rfl
  | unobservable source reason httpStatus =>
    exact .intro 1 (unobservableFields P) (source, reason, httpStatus) (Fields.lawful_of _
      |>.field ProbeSource.codec_lawful |>.field SecretScanningFailureReason.codec_lawful
      |>.field (hP.option hP.u16)) rfl rfl rfl

theorem EnabledProvenance.codec_lawful (hP : P.Lawful) : (EnabledProvenance.codec P).Lawful := by
  refine tagged_lawful hP.u8 fun v => ?_
  cases v with
  | metadata httpStatus alerts =>
    exact .intro 0 (metadataFields P) (httpStatus, alerts) (Fields.lawful_of _
      |>.field (hP.option hP.u16) |>.field (SecretScanningAlerts.codec_lawful hP)) rfl rfl rfl
  | fallback metadata hasOpenAlerts httpStatus =>
    exact .intro 1 (fallbackFields P) (metadata, hasOpenAlerts, httpStatus) (Fields.lawful_of _
      |>.field (MetadataUnavailable.codec_lawful hP) |>.field hP.bool
      |>.field (hP.option hP.u16)) rfl rfl rfl

theorem DisabledObservation.codec_lawful (hP :
    P.Lawful) : (DisabledObservation.codec P).Lawful := by
  refine tagged_lawful hP.u8 fun v => ?_
  cases v with
  | noMismatch source httpStatus =>
    exact .intro 0 (noMismatchFields P) (source, httpStatus) (Fields.lawful_of _
      |>.field ProbeSource.codec_lawful |>.field (hP.option hP.u16)) rfl rfl rfl
  | statusMismatch source httpStatus =>
    exact .intro 1 (statusMismatchFields P) (source, httpStatus) (Fields.lawful_of _
      |>.field ProbeSource.codec_lawful |>.field (hP.option hP.u16)) rfl rfl rfl
  | probeFailed source reason httpStatus =>
    exact .intro 2 (probeFailedFields P) (source, reason, httpStatus) (Fields.lawful_of _
      |>.field ProbeSource.codec_lawful |>.field SecretScanningFailureReason.codec_lawful
      |>.field (hP.option hP.u16)) rfl rfl rfl

theorem UnobservableProbe.codec_lawful (hP : P.Lawful) : (UnobservableProbe.codec P).Lawful := by
  refine tagged_lawful hP.u8 fun v => ?_
  cases v with
  | failed source reason httpStatus =>
    exact .intro 0 (failedFields P) (source, reason, httpStatus) (Fields.lawful_of _
      |>.field ProbeSource.codec_lawful |>.field SecretScanningFailureReason.codec_lawful
      |>.field (hP.option hP.u16)) rfl rfl rfl
  | orgSummaryObserved hasOpenAlerts httpStatus =>
    exact .intro 1 (orgSummaryObservedFields P) (hasOpenAlerts, httpStatus) (Fields.lawful_of _
      |>.field hP.bool |>.field (hP.option hP.u16)) rfl rfl rfl

theorem SecretScanningResult.codec_lawful (hP :
    P.Lawful) : (SecretScanningResult.codec P).Lawful := by
  refine tagged_lawful hP.u8 fun v => ?_
  cases v with
  | enabled provenance timestamp =>
    exact .intro 0 (enabledFields P) (provenance, timestamp) (Fields.lawful_of _
      |>.field (EnabledProvenance.codec_lawful hP) |>.field hP.timestamp) rfl rfl rfl
  | disabled metadataHttpStatus observation timestamp =>
    exact .intro 1 (disabledFields P) (metadataHttpStatus, observation, timestamp)
      (Fields.lawful_of _
      |>.field (hP.option hP.u16) |>.field (DisabledObservation.codec_lawful hP)
      |>.field hP.timestamp) rfl rfl rfl
  | unobservable metadata probe timestamp =>
    exact .intro 2 (unobservableFields P) (metadata, probe, timestamp) (Fields.lawful_of _
      |>.field (MetadataUnavailable.codec_lawful hP) |>.field (UnobservableProbe.codec_lawful hP)
      |>.field hP.timestamp) rfl rfl rfl

theorem DependabotResult.codec_lawful (hP : P.Lawful) : (DependabotResult.codec P).Lawful :=
  (Fields.lawful_of _ |>.field DependabotStatus.codec_lawful
    |>.field (hP.option (hP.eventString _)) |>.field hP.timestamp).struct fun _ => rfl

theorem HistoryProtectionGap.codec_lawful (hP :
    P.Lawful) : (HistoryProtectionGap.codec P).Lawful := by
  refine tagged_lawful hP.u8 fun v => ?_
  cases v with
  | absent confirmedNotFound httpStatus =>
    exact .intro 0 (absentFields P) (confirmedNotFound, httpStatus) (Fields.lawful_of _
      |>.field hP.bool |>.field (hP.option hP.u16)) rfl rfl rfl
  | neitherBlocked =>
    exact .intro 1 neitherBlockedFields () (Fields.lawful_of _) rfl rfl rfl
  | forcePushAllowed =>
    exact .intro 2 forcePushAllowedFields () (Fields.lawful_of _) rfl rfl rfl
  | deletionAllowed =>
    exact .intro 3 deletionAllowedFields () (Fields.lawful_of _) rfl rfl rfl

theorem BranchProtectionResult.codec_lawful (hP :
    P.Lawful) : (BranchProtectionResult.codec P).Lawful := by
  refine tagged_lawful hP.u8 fun v => ?_
  cases v with
  | «protected» defaultBranch timestamp =>
    exact .intro 0 (protectedFields P) (defaultBranch, timestamp) (Fields.lawful_of _
      |>.field (hP.nonEmptyEventString _) |>.field hP.timestamp) rfl rfl rfl
  | unprotected defaultBranch gap timestamp =>
    exact .intro 1 (unprotectedFields P) (defaultBranch, gap, timestamp) (Fields.lawful_of _
      |>.field (hP.nonEmptyEventString _) |>.field (HistoryProtectionGap.codec_lawful hP)
      |>.field hP.timestamp) rfl rfl rfl
  | unobservable defaultBranch reason httpStatus timestamp =>
    exact .intro 2 (unobservableFields P) (defaultBranch, reason, httpStatus, timestamp)
      (Fields.lawful_of _
      |>.field (hP.nonEmptyEventString _) |>.field IndeterminateReason.codec_lawful
      |>.field (hP.option hP.u16) |>.field hP.timestamp) rfl rfl rfl

theorem CodeownersEntry.codec_lawful (hP : P.Lawful) : (CodeownersEntry.codec P).Lawful :=
  (Fields.lawful_of _ |>.field (hP.eventString _)
    |>.field (hP.eventVec (hP.eventString _) _)).struct fun _ => rfl

theorem ParsedCodeowners.codec_lawful (hP : P.Lawful) : (ParsedCodeowners.codec P).Lawful :=
  (Fields.lawful_of _ |>.field (hP.eventVec (CodeownersEntry.codec_lawful hP) _)
    |>.field (hP.eventVec (hP.eventString _) _) |>.field hP.u32).struct fun _ => rfl

theorem CodeownersContent.codec_lawful (hP : P.Lawful) : (CodeownersContent.codec P).Lawful := by
  intro v
  cases v with
  | parsed value =>
    obtain ⟨b, w, r⟩ := ParsedCodeowners.codec_lawful hP value
    exact ⟨0 :: b, fun buf => by simp [codec, push, w _],
      fun s => by simp [codec, hP.u8 _, r _, Nat.add_comm]⟩
  | truncated reason =>
    obtain ⟨b, w, r⟩ := CodeownersTruncationReason.codec_lawful reason
    exact ⟨1 :: b, fun buf => by simp [codec, push, w _],
      fun s => by simp [codec, hP.u8 _, r _, Nat.add_comm]⟩
  | unparsed => exact ⟨[2], fun buf => rfl, fun s => by simp [codec, hP.u8 _]⟩


theorem CodeownersResult.codec_lawful (hP : P.Lawful) : (CodeownersResult.codec P).Lawful := by
  intro v
  cases v with
  | conforming content timestamp =>
    obtain ⟨c, wc, rc⟩ := CodeownersContent.codec_lawful hP content
    obtain ⟨t, wt, rt⟩ := hP.timestamp timestamp
    exact ⟨0 :: (c ++ t), fun buf => by simp [codec, push, wc _, wt _],
      fun s => by simp [codec, hP.u8 _, rc _, rt _]; omega⟩
  | nonConforming location content timestamp =>
    obtain ⟨l, wl, rl⟩ := CodeownersNonConformingLocation.codec_lawful location
    obtain ⟨c, wc, rc⟩ := CodeownersContent.codec_lawful hP content
    obtain ⟨t, wt, rt⟩ := hP.timestamp timestamp
    exact ⟨1 :: (l ++ (c ++ t)), fun buf => by simp [codec, push, wl _, wc _, wt _],
      fun s => by simp [codec, hP.u8 _, rl _, rc _, rt _, Nat.add_assoc]; omega⟩
  | absent timestamp =>
    obtain ⟨t, wt, rt⟩ := hP.timestamp timestamp
    exact ⟨2 :: t, fun buf => by simp [codec, push, wt _],
      fun s => by simp [codec, hP.u8 _, rt _, Nat.add_comm]⟩
  | unobservable reason timestamp =>
    obtain ⟨r, wr, rr⟩ := IndeterminateReason.codec_lawful reason
    obtain ⟨t, wt, rt⟩ := hP.timestamp timestamp
    exact ⟨3 :: (r ++ t), fun buf => by simp [codec, push, wr _, wt _],
      fun s => by simp [codec, hP.u8 _, rr _, rt _]; omega⟩


theorem RepositoryChecks.codec_lawful (hP : P.Lawful) : (RepositoryChecks.codec P).Lawful :=
  (Fields.lawful_of _ |>.field (SecurityPolicyResult.codec_lawful hP)
    |>.field (SecretScanningResult.codec_lawful hP) |>.field (DependabotResult.codec_lawful hP)
    |>.field (BranchProtectionResult.codec_lawful hP)
    |>.field (CodeownersResult.codec_lawful hP)).struct fun _ => rfl

theorem RepositoryEvidence.codec_lawful (hP : P.Lawful) : (RepositoryEvidence.codec P).Lawful :=
  (Fields.lawful_of _ |>.field (Repository.codec_lawful hP)
    |>.field (RepositoryChecks.codec_lawful hP)
    |>.field (hP.option (LastCommitInfo.codec_lawful hP))).struct fun _ => rfl

theorem CollectionCoverage.codec_lawful (hP : P.Lawful) :
    (CollectionCoverage.codec P).Lawful := by
  intro v
  cases v with
  | unknown => exact ⟨[0], fun buf => rfl, fun s => rfl⟩
  | known total limit =>
    obtain ⟨t, wt, rt⟩ := hP.u32 total
    obtain ⟨l, wl, rl⟩ := hP.u64 limit.1
    exact ⟨1 :: (t ++ l), fun buf => by simp [codec, push, wt _, wl _],
      fun s => by simp [codec, rt _, rl _, limit.2]; omega⟩


theorem AssessmentMetadata.codec_lawful (hP : P.Lawful) : (AssessmentMetadata.codec P).Lawful :=
  (Fields.lawful_of _ |>.field (hP.eventString _) |>.field (hP.eventString _)
    |>.field (hP.eventString _) |>.field (hP.eventString _) |>.field (hP.eventString _)
    |>.field TokenTier.codec_lawful |>.field (hP.eventString _) |>.field AuthMode.codec_lawful
    |>.field hP.u32 |>.field (hP.eventVec Capability.codec_lawful _)
    |>.field (hP.option (hP.eventString _)) |>.field hP.bool
    |>.field (CollectionCoverage.codec_lawful hP)).struct fun _ => rfl

theorem RepoAlertSummary.codec_lawful (hP : P.Lawful) : (RepoAlertSummary.codec P).Lawful :=
  (Fields.lawful_of _ |>.field hP.u64 |>.field (hP.option (hP.eventString _))
    |>.field (hP.option (hP.eventString _))).struct fun _ => rfl

theorem RepoAlertSummaryEntry.codec_lawful (hP :
    P.Lawful) : (RepoAlertSummaryEntry.codec P).Lawful :=
  (Fields.lawful_of _ |>.field (hP.eventString _)
    |>.field (RepoAlertSummary.codec_lawful hP)).struct fun _ => rfl

theorem StringU64Entry.codec_lawful (hP : P.Lawful) : (StringU64Entry.codec P).Lawful :=
  (Fields.lawful_of _ |>.field (hP.eventString _) |>.field hP.u64).struct fun _ => rfl

theorem OrgAlertSummary.codec_lawful (hP : P.Lawful) : (OrgAlertSummary.codec P).Lawful :=
  (Fields.lawful_of _ |>.field CollectionStatus.codec_lawful
    |>.field (hP.option (hP.eventString _)) |>.field (hP.option hP.u16)
    |>.field (hP.eventVec (RepoAlertSummaryEntry.codec_lawful hP) _)
    |>.field (hP.eventVec (StringU64Entry.codec_lawful hP) _) |>.field hP.u64
    |>.field (hP.option (hP.eventString _))
    |>.field (hP.option (hP.eventString _))).struct fun _ => rfl

theorem OrgStateCaptured.codec_lawful (hP : P.Lawful) : (OrgStateCaptured.codec P).Lawful :=
  (Fields.lawful_of _ |>.field hP.u32 |>.field (AssessmentMetadata.codec_lawful hP)
    |>.field (OrgAlertSummary.codec_lawful hP)).struct fun _ => rfl

theorem TeamMemberEvent.codec_lawful (hP : P.Lawful) : (TeamMemberEvent.codec P).Lawful :=
  (Fields.lawful_of _ |>.field (hP.nonEmptyEventString _)
    |>.field TeamMemberRoleEvent.codec_lawful |>.field (hP.option hP.bool)).struct fun _ => rfl

theorem TeamStateCaptured.codec_lawful (hP : P.Lawful) : (TeamStateCaptured.codec P).Lawful :=
  (Fields.lawful_of _ |>.field (hP.nonEmptyEventString _) |>.field (hP.nonEmptyEventString _)
    |>.field (hP.eventVec (TeamMemberEvent.codec_lawful hP) _)
    |>.field OrphanAttributionInputs.codec_lawful |>.field (hP.eventString _)
    |>.field TeamRosterStatusEvent.codec_lawful).struct fun _ => rfl

theorem SweepTimeoutEvent.codec_lawful (hP : P.Lawful) :
    (SweepTimeoutEvent.codec P).Lawful := by
  intro v
  cases v with
  | targetOpened eventId =>
    obtain ⟨i, wi, ri⟩ := hP.uuid eventId
    exact ⟨0 :: i, fun buf => by simp [codec, push, wi _],
      fun s => by simp [codec, ri _, Nat.add_comm]⟩
  | timeoutFired eventId runId error elapsedMs =>
    obtain ⟨i, wi, ri⟩ := hP.uuid eventId
    obtain ⟨r, wr, rr⟩ := hP.eventString _ runId
    obtain ⟨e, we, re⟩ := hP.eventString _ error
    obtain ⟨m, wm, rm⟩ := hP.u64 elapsedMs
    exact ⟨1 :: (i ++ (r ++ (e ++ m))),
      fun buf => by simp [codec, push, wi _, wr _, we _, wm _],
      fun s => by simp [codec, ri _, rr _, re _, rm _, Nat.add_assoc]; omega⟩


theorem DomainEvent.codec_lawful (hP : P.Lawful) : (DomainEvent.codec P).Lawful := by
  intro v
  cases v with
  | repositoryStateCaptured domainKey repoName timestamp evidence =>
    obtain ⟨k, wk, rk⟩ := hP.nonEmptyEventString _ domainKey
    obtain ⟨n, wn, rn⟩ := hP.nonEmptyEventString _ repoName
    obtain ⟨t, wt, rt⟩ := hP.timestamp timestamp
    obtain ⟨e, we, re⟩ := hP.option (RepositoryEvidence.codec_lawful hP) evidence
    exact ⟨0 :: (k ++ (n ++ (t ++ e))),
      fun buf => by simp [codec, push, wk _, wn _, wt _, we _],
      fun s => by simp [codec, rk _, rn _, rt _, re _, Nat.add_assoc]; omega⟩
  | repositoryDeleted domainKey repoName detectedAt =>
    obtain ⟨k, wk, rk⟩ := hP.nonEmptyEventString _ domainKey
    obtain ⟨n, wn, rn⟩ := hP.nonEmptyEventString _ repoName
    obtain ⟨t, wt, rt⟩ := hP.timestamp detectedAt
    exact ⟨1 :: (k ++ (n ++ t)), fun buf => by simp [codec, push, wk _, wn _, wt _],
      fun s => by simp [codec, rk _, rn _, rt _, Nat.add_assoc]; omega⟩
  | orgStateCaptured org =>
    obtain ⟨o, wo, ro⟩ := OrgStateCaptured.codec_lawful hP org
    exact ⟨2 :: o, fun buf => by simp [codec, push, wo _],
      fun s => by simp [codec, ro _, Nat.add_comm]⟩
  | teamStateCaptured team =>
    obtain ⟨m, wm, rm⟩ := TeamStateCaptured.codec_lawful hP team
    exact ⟨3 :: m, fun buf => by simp [codec, push, wm _],
      fun s => by simp [codec, rm _, Nat.add_comm]⟩


/--
Each event of the three durable schemas and of the timeout stream decodes from its own bytes
in front of any suffix, and the decoder uses exactly those bytes.
-/
theorem event_round_trip (hP : P.Lawful) :
    (∀ (e : DomainEvent) (s : List UInt8), ∃ b, (DomainEvent.codec P).encode e [] = .ok b ∧
      (DomainEvent.codec P).decode (b ++ s) = .ok (e, b.length)) ∧
    (∀ (e : OrgStateCaptured) (s : List UInt8), ∃ b,
      (OrgStateCaptured.codec P).encode e [] = .ok b ∧
      (OrgStateCaptured.codec P).decode (b ++ s) = .ok (e, b.length)) ∧
    (∀ (e : TeamStateCaptured) (s : List UInt8), ∃ b,
      (TeamStateCaptured.codec P).encode e [] = .ok b ∧
      (TeamStateCaptured.codec P).decode (b ++ s) = .ok (e, b.length)) ∧
    (∀ (e : SweepTimeoutEvent) (s : List UInt8), ∃ b,
      (SweepTimeoutEvent.codec P).encode e [] = .ok b ∧
      (SweepTimeoutEvent.codec P).decode (b ++ s) = .ok (e, b.length)) :=
  ⟨(DomainEvent.codec_lawful hP).round_trip, (OrgStateCaptured.codec_lawful hP).round_trip,
    (TeamStateCaptured.codec_lawful hP).round_trip, (SweepTimeoutEvent.codec_lawful hP).round_trip⟩

end Lawful

theorem event_round_trip_canonical :
    ∃ b, (DomainEvent.codec canonical).encode
        (.repositoryDeleted ⟨"17", by decide, by decide⟩ ⟨"gh-report", by decide, by decide⟩
          ⟨1, by decide⟩) [] = .ok b ∧
      (DomainEvent.codec canonical).decode (b ++ [0xff]) =
        .ok (.repositoryDeleted ⟨"17", by decide, by decide⟩
          ⟨"gh-report", by decide, by decide⟩ ⟨1, by decide⟩, b.length) :=
  (event_round_trip canonical_lawful).1 _ _

end GhReport.Event
