import GhReport.Domain.Types
import Mathlib.Algebra.Group.Int.Defs

/-! # Conversions between domain and event types

A domain value becomes an event when every text fits its bound and every
timestamp parses to a positive number of nanoseconds in 64 bits; the first field
that does not is named in the error. An event always has a domain value.
-/

namespace GhReport.Event

open Pardosa Limits

inductive EventConversionError where
  | tooLong (field : String)
  | empty (field : String)
  | badTimestamp (field : String) (value : String)
  | tooMany (field : String)
deriving DecidableEq

abbrev Conv (α : Type) := Except EventConversionError α

/--
The calendar library: `parseIso8601` gives the nanoseconds of an instant, `fromNanosecond`
the text of one, where the library represents it.
-/
structure Calendar where
  parseIso8601 : String → Option ℤ
  fromNanosecond : ℤ → Option String

def toEs (max : Limit) (field value : String) : Conv (EventString max) :=
  match EventString.new max value with
  | some s => .ok s
  | none => .error (.tooLong field)

def toEsOpt (max : Limit) (field : String) : Option String → Conv (Option (EventString max))
  | none => .ok none
  | some value => (toEs max field value).map some

def toEventVec {α β : Type} (max : Limit) (field : String) (values : List α)
    (convert : α → Conv β) : Conv (EventVec β max) := do
  let converted ← values.mapM convert
  match EventVec.new max converted with
  | some v => .ok v
  | none => .error (.tooMany field)

def toNes (max : Limit) (field value : String) : Conv (NonEmptyEventString max) :=
  match NonEmptyEventString.new max value with
  | some s => .ok s
  | none => if value.isEmpty then .error (.empty field) else .error (.tooLong field)

section Calendar

variable (C : Calendar)

def tsRequired (field value : String) : Conv Timestamp :=
  match C.parseIso8601 value with
  | none => .error (.badTimestamp field value)
  | some nanos =>
    if 0 ≤ nanos ∧ nanos < 2 ^ 64 then
      match Timestamp.new (UInt64.ofNat nanos.toNat) with
      | some t => .ok t
      | none => .error (.badTimestamp field value)
    else .error (.badTimestamp field value)

def tsOpt (field : String) : Option String → Conv (Option Timestamp)
  | none => .ok none
  | some value => (tsRequired C field value).map some

def tsToString (ts : Timestamp) : String :=
  (C.fromNanosecond ts.nanos.toNat).getD ""

/-! ## Repositories -/

def Repository.tryFrom (r : Domain.Repository) : Conv Repository := do
  return {
    id := ← toNes maxGithubId "repository.id" r.id
    nodeId := ← toEsOpt maxNodeId "repository.node_id" r.nodeId
    name := ← toNes maxRepoName "repository.name" r.name
    visibility := r.visibility
    language := ← toEsOpt maxLanguage "repository.language" r.language
    defaultBranch := ← toNes maxBranchName "repository.default_branch" r.defaultBranch
    archived := r.archived
    inventoryKey := ← toNes maxDomainKey "repository.inventory_key" r.inventoryKey
    updatedAt := ← r.updatedAt.mapM fun s => toNes maxTimestampText "repository.updated_at" s.1
    hasIssues := r.hasIssues
    pushedAt := ← tsOpt C "repository.pushed_at" r.pushedAt
    createdAt := ← tsOpt C "repository.created_at" r.createdAt
    description := ← toEsOpt maxDescription "repository.description" r.description
    fork := r.fork
    isEmpty := r.isEmpty
    htmlUrl := ← toEsOpt maxUrl "repository.html_url" r.htmlUrl
    topics := ← toEventVec maxTopics "repository.topics" r.topics
      (toEs maxTopic "repository.topics")
    licenseSpdx := ← toEsOpt maxLicense "repository.license_spdx" r.licenseSpdx }

def Repository.toDomain (r : Repository) : Domain.Repository where
  id := r.id.text
  nodeId := r.nodeId.map EventString.text
  name := r.name.text
  visibility := r.visibility
  language := r.language.map EventString.text
  defaultBranch := r.defaultBranch.text
  archived := r.archived
  inventoryKey := r.inventoryKey.text
  updatedAt := r.updatedAt.map fun s => ⟨s.text, s.ne_empty⟩
  hasIssues := r.hasIssues
  pushedAt := r.pushedAt.map (tsToString C)
  createdAt := r.createdAt.map (tsToString C)
  description := r.description.map EventString.text
  fork := r.fork
  isEmpty := r.isEmpty
  htmlUrl := r.htmlUrl.map EventString.text
  topics := r.topics.items.map EventString.text
  licenseSpdx := r.licenseSpdx.map EventString.text

/-! ## Check results -/

def SecurityPolicyResult.tryFrom (v : Domain.SecurityPolicyResult) :
    Conv SecurityPolicyResult := do
  let timestamp ← tsRequired C "security_policy.timestamp" v.timestamp
  match v with
  | .enabledBySetting _ => return .enabledBySetting timestamp
  | .enabledByFile path _ =>
    return .enabledByFile (← toNes maxPath "security_policy.path" path.1) timestamp
  | .absent _ => return .absent timestamp
  | .notApplicable _ => return .notApplicable timestamp
  | .unobservable reason _ => return .unobservable reason timestamp

def SecurityPolicyResult.toDomain : SecurityPolicyResult → Domain.SecurityPolicyResult
  | enabledBySetting timestamp => .enabledBySetting (tsToString C timestamp)
  | enabledByFile path timestamp =>
    .enabledByFile ⟨path.text, path.ne_empty⟩ (tsToString C timestamp)
  | absent timestamp => .absent (tsToString C timestamp)
  | notApplicable timestamp => .notApplicable (tsToString C timestamp)
  | unobservable reason timestamp => .unobservable reason (tsToString C timestamp)

def SecretScanningResult.tryFrom (v : Domain.SecretScanningResult) :
    Conv SecretScanningResult := do
  let timestamp ← tsRequired C "secret_scanning.timestamp" v.timestamp
  match v with
  | .enabled provenance _ => return .enabled provenance timestamp
  | .disabled metadataHttpStatus observation _ =>
    return .disabled metadataHttpStatus observation timestamp
  | .unobservable metadata probe _ => return .unobservable metadata probe timestamp

def SecretScanningResult.toDomain : SecretScanningResult → Domain.SecretScanningResult
  | enabled provenance timestamp => .enabled provenance (tsToString C timestamp)
  | disabled metadataHttpStatus observation timestamp =>
    .disabled metadataHttpStatus observation (tsToString C timestamp)
  | unobservable metadata probe timestamp => .unobservable metadata probe (tsToString C timestamp)

def DependabotResult.tryFrom (v : Domain.DependabotResult) : Conv DependabotResult := do
  return {
    status := v.status
    reason := ← toEsOpt maxReason "dependabot.reason" v.reason
    timestamp := ← tsRequired C "dependabot.timestamp" v.timestamp }

def DependabotResult.toDomain (v : DependabotResult) : Domain.DependabotResult where
  status := v.status
  reason := v.reason.map EventString.text
  timestamp := tsToString C v.timestamp

def BranchProtectionResult.tryFrom : Domain.BranchProtectionResult → Conv BranchProtectionResult
  | .«protected» defaultBranch timestamp => do
    return .«protected»
      (← toNes maxBranchName "branch_protection.default_branch" defaultBranch)
      (← tsRequired C "branch_protection.timestamp" timestamp)
  | .unprotected defaultBranch gap timestamp => do
    return .unprotected
      (← toNes maxBranchName "branch_protection.default_branch" defaultBranch) gap
      (← tsRequired C "branch_protection.timestamp" timestamp)
  | .unobservable defaultBranch reason httpStatus timestamp => do
    return .unobservable
      (← toNes maxBranchName "branch_protection.default_branch" defaultBranch) reason httpStatus
      (← tsRequired C "branch_protection.timestamp" timestamp)

def BranchProtectionResult.toDomain : BranchProtectionResult → Domain.BranchProtectionResult
  | «protected» defaultBranch timestamp =>
    .«protected» defaultBranch.text (tsToString C timestamp)
  | unprotected defaultBranch gap timestamp =>
    .unprotected defaultBranch.text gap (tsToString C timestamp)
  | unobservable defaultBranch reason httpStatus timestamp =>
    .unobservable defaultBranch.text reason httpStatus (tsToString C timestamp)

def CodeownersEntry.tryFrom (v : Domain.CodeownersEntry) : Conv CodeownersEntry := do
  return {
    pattern := ← toEs maxCodeownersPattern "codeowners.entry.pattern" v.pattern
    owners := ← toEventVec maxCodeownersOwners "codeowners.entry.owners" v.owners
      (toEs maxCodeownersOwner "codeowners.entry.owners") }

def CodeownersEntry.toDomain (v : CodeownersEntry) : Domain.CodeownersEntry where
  pattern := v.pattern.text
  owners := v.owners.items.map EventString.text

def ParsedCodeowners.tryFrom (v : Domain.ParsedCodeowners) : Conv ParsedCodeowners := do
  return {
    entries := ← toEventVec maxCodeownersEntries "codeowners.entries" v.entries
      CodeownersEntry.tryFrom
    uniqueOwners := ← toEventVec maxCodeownersOwners "codeowners.unique_owners" v.uniqueOwners
      (toEs maxCodeownersOwner "codeowners.unique_owners")
    skippedLines := v.skippedLines }

def ParsedCodeowners.toDomain (v : ParsedCodeowners) : Domain.ParsedCodeowners where
  entries := v.entries.items.map CodeownersEntry.toDomain
  uniqueOwners := v.uniqueOwners.items.map EventString.text
  skippedLines := v.skippedLines

def CodeownersContent.tryFrom : Domain.CodeownersContent → Conv CodeownersContent
  | .parsed value => do return .parsed (← ParsedCodeowners.tryFrom value)
  | .truncated reason => .ok (.truncated reason)
  | .unparsed => .ok .unparsed

def CodeownersContent.toDomain : CodeownersContent → Domain.CodeownersContent
  | parsed value => .parsed value.toDomain
  | truncated reason => .truncated reason
  | unparsed => .unparsed

def CodeownersResult.tryFrom (v : Domain.CodeownersResult) : Conv CodeownersResult := do
  let timestamp ← tsRequired C "codeowners.timestamp" v.timestamp
  match v with
  | .conforming content _ => return .conforming (← CodeownersContent.tryFrom content) timestamp
  | .nonConforming location content _ =>
    return .nonConforming location (← CodeownersContent.tryFrom content) timestamp
  | .absent _ => return .absent timestamp
  | .unobservable reason _ => return .unobservable reason timestamp

def CodeownersResult.toDomain : CodeownersResult → Domain.CodeownersResult
  | conforming content timestamp => .conforming content.toDomain (tsToString C timestamp)
  | nonConforming location content timestamp =>
    .nonConforming location content.toDomain (tsToString C timestamp)
  | absent timestamp => .absent (tsToString C timestamp)
  | unobservable reason timestamp => .unobservable reason (tsToString C timestamp)

def RepositoryChecks.tryFrom (v : Domain.RepositoryChecks) : Conv RepositoryChecks := do
  return {
    securityPolicy := ← SecurityPolicyResult.tryFrom C v.securityPolicy
    secretScanning := ← SecretScanningResult.tryFrom C v.secretScanning
    dependabotSecurityUpdates := ← DependabotResult.tryFrom C v.dependabotSecurityUpdates
    branchProtection := ← BranchProtectionResult.tryFrom C v.branchProtection
    codeowners := ← CodeownersResult.tryFrom C v.codeowners }

def RepositoryChecks.toDomain (v : RepositoryChecks) : Domain.RepositoryChecks where
  securityPolicy := v.securityPolicy.toDomain C
  secretScanning := v.secretScanning.toDomain C
  dependabotSecurityUpdates := v.dependabotSecurityUpdates.toDomain C
  branchProtection := v.branchProtection.toDomain C
  codeowners := v.codeowners.toDomain C

def LastCommitInfo.tryFrom (v : Domain.LastCommitInfo) : Conv LastCommitInfo := do
  return {
    committerLogin := ← toEsOpt maxLogin "last_commit.committer_login" v.committerLogin
    committerName := ← toEsOpt maxPersonName "last_commit.committer_name" v.committerName
    commitDate := ← tsOpt C "last_commit.commit_date" v.commitDate }

def LastCommitInfo.toDomain (v : LastCommitInfo) : Domain.LastCommitInfo where
  committerLogin := v.committerLogin.map EventString.text
  committerName := v.committerName.map EventString.text
  commitDate := v.commitDate.map (tsToString C)

def RepositoryEvidence.tryFrom (v : Domain.RepositoryEvidence) : Conv RepositoryEvidence := do
  return {
    repository := ← Repository.tryFrom C v.repository
    checks := ← RepositoryChecks.tryFrom C v.checks
    lastCommit := ← v.lastCommit.mapM (LastCommitInfo.tryFrom C) }

def RepositoryEvidence.toDomain (v : RepositoryEvidence) : Domain.RepositoryEvidence where
  repository := v.repository.toDomain C
  checks := v.checks.toDomain C
  lastCommit := v.lastCommit.map (LastCommitInfo.toDomain C)
  repoDetailsNotModified := false

end Calendar

/-! ## Organisation state -/

def CollectionCoverage.tryFrom : Domain.CollectionCoverage → Conv CollectionCoverage
  | .unknown => .ok .unknown
  | .known total limit =>
    if total < 2 ^ 32 then .ok (.known (UInt32.ofNat total) limit)
    else .error (.tooLong "assessment_metadata.coverage.total")

def CollectionCoverage.toDomain : CollectionCoverage → Domain.CollectionCoverage
  | unknown => .unknown
  | known total limit => .known total.toNat limit

def AssessmentMetadata.tryFrom (v : Domain.AssessmentMetadata) : Conv AssessmentMetadata := do
  return {
    date := ← toEs maxAssessmentDate "assessment_metadata.date" v.date
    organization := ← toEs maxLogin "assessment_metadata.organization" v.organization
    schemaVersion := ← toEs maxSchemaVersion "assessment_metadata.schema_version" v.schemaVersion
    runTimestamp := ← toEs maxTimestampText "assessment_metadata.run_timestamp" v.runTimestamp
    runId := ← toEs maxRunId "assessment_metadata.run_id" v.runId
    tokenTier := v.tokenTier
    tokenScopes := ← toEs maxTokenScopes "assessment_metadata.token_scopes" v.tokenScopes
    authMode := v.authMode
    rateLimitWarnings := v.rateLimitWarnings
    unavailableCapabilities := ← toEventVec maxUnavailableCapabilities
      "assessment_metadata.unavailable_capabilities" v.unavailableCapabilities .ok
    inventoryFetchedAt := ← toEsOpt maxTimestampText "assessment_metadata.inventory_fetched_at"
      v.inventoryFetchedAt
    warmStart := v.warmStart
    coverage := ← CollectionCoverage.tryFrom v.coverage }

def AssessmentMetadata.toDomain (v : AssessmentMetadata) : Domain.AssessmentMetadata where
  date := v.date.text
  organization := v.organization.text
  schemaVersion := v.schemaVersion.text
  runTimestamp := v.runTimestamp.text
  runId := v.runId.text
  tokenTier := v.tokenTier
  tokenScopes := v.tokenScopes.text
  authMode := v.authMode
  rateLimitWarnings := v.rateLimitWarnings
  unavailableCapabilities := v.unavailableCapabilities.items
  inventoryFetchedAt := v.inventoryFetchedAt.map EventString.text
  warmStart := v.warmStart
  coverage := v.coverage.toDomain

def RepoAlertSummary.tryFrom (v : Domain.RepoAlertSummary) : Conv RepoAlertSummary := do
  return {
    openAlertCount := v.openAlertCount
    oldestOpenAlertCreatedAt := ← toEsOpt maxTimestampText
      "repo_alert_summary.oldest_open_alert_created_at" v.oldestOpenAlertCreatedAt
    newestOpenAlertCreatedAt := ← toEsOpt maxTimestampText
      "repo_alert_summary.newest_open_alert_created_at" v.newestOpenAlertCreatedAt }

def RepoAlertSummary.toDomain (v : RepoAlertSummary) : Domain.RepoAlertSummary where
  openAlertCount := v.openAlertCount
  oldestOpenAlertCreatedAt := v.oldestOpenAlertCreatedAt.map EventString.text
  newestOpenAlertCreatedAt := v.newestOpenAlertCreatedAt.map EventString.text

/-- The maps are written out in key order. -/
def OrgAlertSummary.tryFrom (v : Domain.OrgAlertSummary) : Conv OrgAlertSummary := do
  let perRepo ← toEventVec maxOrgAlertRepos "org_alert_summary.per_repo" v.perRepo.toList
    fun p => do
      return {
        repositoryId := ← toEs maxGithubId "org_alert_summary.per_repo.key" p.1
        summary := ← RepoAlertSummary.tryFrom p.2 : RepoAlertSummaryEntry }
  let openSecretAlertAgeBuckets ← toEventVec maxAlertBuckets
    "org_alert_summary.open_secret_alert_age_buckets" v.openSecretAlertAgeBuckets.toList
    fun p => do
      return {
        key := ← toEs maxAlertBucket "org_alert_summary.open_secret_alert_age_buckets.key" p.1
        value := p.2 : StringU64Entry }
  return {
    collectionStatus := v.collectionStatus
    collectionReason := ← toEsOpt maxReason "org_alert_summary.collection_reason"
      v.collectionReason
    httpStatus := v.httpStatus
    perRepo
    openSecretAlertAgeBuckets
    totalOpenSecretAlerts := v.totalOpenSecretAlerts
    oldestOpenSecretAlertCreatedAt := ← toEsOpt maxTimestampText
      "org_alert_summary.oldest_open_secret_alert_created_at" v.oldestOpenSecretAlertCreatedAt
    newestOpenSecretAlertCreatedAt := ← toEsOpt maxTimestampText
      "org_alert_summary.newest_open_secret_alert_created_at" v.newestOpenSecretAlertCreatedAt }

/-- Of entries with one key the last is kept. -/
def OrgAlertSummary.toDomain (v : OrgAlertSummary) : Domain.OrgAlertSummary where
  collectionStatus := v.collectionStatus
  collectionReason := v.collectionReason.map EventString.text
  httpStatus := v.httpStatus
  perRepo := .ofList (v.perRepo.items.map fun e => (e.repositoryId.text, e.summary.toDomain)) _
  openSecretAlertAgeBuckets :=
    .ofList (v.openSecretAlertAgeBuckets.items.map fun e => (e.key.text, e.value)) _
  totalOpenSecretAlerts := v.totalOpenSecretAlerts
  oldestOpenSecretAlertCreatedAt := v.oldestOpenSecretAlertCreatedAt.map EventString.text
  newestOpenSecretAlertCreatedAt := v.newestOpenSecretAlertCreatedAt.map EventString.text

def OrgStateCaptured.tryFrom (v : Domain.OrgStateSnapshot) : Conv OrgStateCaptured := do
  return {
    archivedRepos := v.archivedRepos
    assessmentMetadata := ← AssessmentMetadata.tryFrom v.assessmentMetadata
    alertSummary := ← OrgAlertSummary.tryFrom v.alertSummary }

def OrgStateCaptured.toDomain (v : OrgStateCaptured) : Domain.OrgStateSnapshot where
  archivedRepos := v.archivedRepos
  assessmentMetadata := v.assessmentMetadata.toDomain
  alertSummary := v.alertSummary.toDomain

/-! ## Team state -/

/-- An empty observation instant reads back as none. -/
def TeamStateCaptured.toDomain (v : TeamStateCaptured) : Domain.TeamRoster where
  canonicalOwner := "@" ++ v.org.text ++ "/" ++ v.teamSlug.text
  teamSlug := v.teamSlug.text
  status := v.status
  members := v.members.items.map fun member =>
    { login := member.login.text, role := member.role, inOrg := member.inOrg }
  fetchedAt := if v.fetchedAt.text = "" then none else some v.fetchedAt.text

/-- The token of the team an event is about. -/
def TeamStateCaptured.key (v : TeamStateCaptured) : String :=
  match teamDomainKey v.org.text v.teamSlug.text with
  | .ok key => key
  | .error _ => ""

theorem TeamStateCaptured.teamDomainKey_eq (v : TeamStateCaptured) :
    teamDomainKey v.org.text v.teamSlug.text = .ok v.key := by
  have ho : v.org.text.isEmpty = false := by simpa using v.org.ne_empty
  have ht : v.teamSlug.text.isEmpty = false := by simpa using v.teamSlug.ne_empty
  simp [key, teamDomainKey, ho, ht]

end GhReport.Event
