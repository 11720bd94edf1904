import GhReport.Event.Convert
import GhReport.Store.Inner

/-! # Errors of a write, and the events it writes

What a store reports becomes a persistence error; what a caller passes in becomes
an event or a load failure.
-/

namespace GhReport.App

open Domain Event Pardosa Store Limits

/-! ## Errors -/

/-- A cause that a persistence error wraps: `ε` is the wrapped persistence error itself. -/
inductive Cause (ε : Type) where
  | store (error : StoreError)
  | persistence (error : ε)
  /-- The primary effect landed and the dedicated operation failed. -/
  | primaryEffect (error : ε)

inductive PersistenceError where
  | indeterminate (source : Cause PersistenceError)
  | backendUnavailable (source : StoreError)
  | io (error : StoreError)
  | fencedConflict (expectedSeq actualSeq : Option UInt64) (source : OperationFailure)
  | tornWriteRecovery (source : String)
  | invariantViolation (reason : String)
  | poisonedState
  | loadFailed (reason : String)

def PersistenceError.isIndeterminate : PersistenceError → Bool
  | .indeterminate _ => true
  | _ => false

def nativeStorePersistence : StoreError → PersistenceError
  | .operation failure =>
    if failure.condition = .transportUnavailable then .backendUnavailable (.operation failure)
    else .io (.operation failure)
  | .indeterminate carriedEpoch => .indeterminate (.store (.indeterminate carriedEpoch))
  | .creationUnknown failure => .indeterminate (.store (.creationUnknown failure))
  | .landedNeedsReconciliation => .indeterminate (.store .landedNeedsReconciliation)
  | .afterLanded error => .indeterminate (.store (.afterLanded error))
  | .encode error => .io (.encode error)
  | .decode error => .io (.decode error)
  | .concurrencyConflict expectedSeq actualSeq source =>
    .fencedConflict expectedSeq actualSeq source
  | .tornWriteRecovery source => .tornWriteRecovery source
  | .infrastructure message => .backendUnavailable (.infrastructure message)
  | .alreadyExists failure => .backendUnavailable (.alreadyExists failure)
  | .divergedFiber key =>
    .invariantViolation ("domain key " ++ key.quote ++ " maps to multiple fibers")
  | .poisoned => .poisonedState

def conversionReason : EventConversionError → String
  | .tooLong field => "field " ++ field ++ ": value exceeds bounded length"
  | .empty field => "field " ++ field ++ ": empty value where non-empty required"
  | .badTimestamp field value =>
    "field " ++ field ++ ": unparseable or out-of-range timestamp " ++ value.quote
  | .tooMany field => "field " ++ field ++ ": collection exceeds bounded capacity"

def conversionPersistence (error : EventConversionError) : PersistenceError :=
  .loadFailed (conversionReason error)

/-! ## Events of a write -/

def nonEmpty (max : Limit) (field value : String) :
    Except PersistenceError (NonEmptyEventString max) :=
  (toNes max field value).mapError conversionPersistence

def boundedString (max : Limit) (field value : String) :
    Except PersistenceError (EventString max) :=
  (toEs max field value).mapError conversionPersistence

def eventTimestamp (C : Calendar) (field value : String) : Except PersistenceError Timestamp :=
  (tsRequired C field value).mapError conversionPersistence

def repoEvent (C : Calendar) (domainKey repoName timestamp : String)
    (evidence : Option Event.RepositoryEvidence) : Except PersistenceError DomainEvent := do
  let domainKey ← nonEmpty maxDomainKey "domain_key" domainKey
  let repoName ← nonEmpty maxRepoName "repo_name" repoName
  let timestamp ← eventTimestamp C "timestamp" timestamp
  .ok (.repositoryStateCaptured domainKey repoName timestamp evidence)

def deletedRepoEvent (C : Calendar) (domainKey repoName detectedAt : String) :
    Except PersistenceError DomainEvent := do
  let domainKey ← nonEmpty maxDomainKey "domain_key" domainKey
  let repoName ← nonEmpty maxRepoName "repo_name" repoName
  let detectedAt ← eventTimestamp C "detected_at" detectedAt
  .ok (.repositoryDeleted domainKey repoName detectedAt)

/-- The roster without its members, which is what a detach writes down. -/
def detachTombstoneRoster (roster : TeamRoster) : TeamRoster :=
  { roster with fetchedAt := none, members := [] }

def teamMemberEvent (member : TeamMember) : Except PersistenceError TeamMemberEvent := do
  let login ← nonEmpty maxLogin "member.login" member.login
  .ok ⟨login, member.role, member.inOrg⟩

def boundedMembers (members : List TeamMemberEvent) :
    Except PersistenceError (EventVec TeamMemberEvent maxTeamMembers) :=
  match EventVec.new maxTeamMembers members with
  | some members => .ok members
  | none => .error (conversionPersistence (.tooMany "members"))

def teamStateEvent (org : String) (roster : TeamRoster) (fetchedAt : String)
    (orgMembershipFetchStatus : OrgMembershipFetchStatus) :
    Except PersistenceError TeamStateCaptured := do
  let members ← roster.members.mapM teamMemberEvent
  let members ← boundedMembers members
  let org ← nonEmpty maxLogin "org" org
  let teamSlug ← nonEmpty maxLogin "team_slug" roster.teamSlug
  let fetchedAt ← boundedString maxTimestampText "fetched_at" fetchedAt
  .ok {
    org := org
    teamSlug := teamSlug
    members := members
    orphanAttributionInputs := ⟨orgMembershipFetchStatus⟩
    fetchedAt := fetchedAt
    status := roster.status }

end GhReport.App
