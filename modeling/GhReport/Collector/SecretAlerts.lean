import GhReport.Collector.SecretScanning
import GhReport.Event.Convert

/-! # Organisation alerts

The open alerts of the organisation are read in one listing and counted, in all
and for each repository of the inventory that they name. An alert that names no
repository, or two, takes the authority of the summary away.
-/

namespace GhReport.Collector.SecretScanning

open Domain GitHub
open Event (Calendar CollectionStatus)

/-- The calendar library, the form that normalised times are printed in, and the current time. -/
structure AlertClock where
  calendar : Calendar
  strftime : ℤ → String
  now : ℤ

/-! ## Ages -/

def secretAlertAgeBuckets : List (String × ℕ × Option ℕ) :=
  [("0_7_days", 0, some 7), ("8_30_days", 8, some 30), ("31_90_days", 31, some 90),
    ("91_plus_days", 91, none)]

def secretAlertUnknownAgeBucket : String := "unknown"

def emptyAgeBuckets {N : Type} [Zero N] : KeyMap N :=
  (secretAlertAgeBuckets.foldl (fun (buckets : KeyMap N) bucket => buckets.insert bucket.1 0)
    ∅).insert secretAlertUnknownAgeBucket 0

/-- The whole days between two instants, none when they are in the wrong order. -/
def ageDays (created now : ℤ) : ℕ := (((now - created).tdiv (10 ^ 9)).tdiv 86400).toNat

def ageBucket (clock : AlertClock) (createdAt : String) (now : ℤ) : Option String := do
  let created ← clock.calendar.parseIso8601 createdAt
  let age := ageDays created now
  let bucket ← secretAlertAgeBuckets.find? fun (_, minDays, maxDays) =>
    minDays ≤ age ∧ maxDays.all (age ≤ ·)
  return bucket.1

def normalizeIso8601 (clock : AlertClock) (value : String) : Option String :=
  (clock.calendar.parseIso8601 value).map clock.strftime

def trackTimestamp (current : Option String) (candidate : String) (keepOldest : Bool) :
    Option String :=
  match current with
  | none => some candidate
  | some existing =>
    if keepOldest ∧ candidate < existing ∨ ¬ keepOldest ∧ existing < candidate then some candidate
    else some existing

/-! ## Failures -/

def buildFailureSummary (result : ApiOutcome) : OrgAlertSummary :=
  let (collectionStatus, reason) : CollectionStatus × String :=
    if result.statusCode = some 401 ∨ result.statusCode = some 403 then
      (.permissionDenied, "permission_denied")
    else if result.statusCode = some 429 then (.unavailable, "rate_limited")
    else if result.statusCode = some 404 then (.unavailable, "alerts_unavailable")
    else if result.isRetryable then (.transientError, "transient_error")
    else (.unavailable, "alerts_unavailable")
  { collectionStatus := collectionStatus
    collectionReason := some reason
    httpStatus := result.statusCode
    perRepo := ∅
    openSecretAlertAgeBuckets := emptyAgeBuckets
    totalOpenSecretAlerts := 0
    oldestOpenSecretAlertCreatedAt := none
    newestOpenSecretAlertCreatedAt := none }

def malformedSummary (result : ApiOutcome) : OrgAlertSummary :=
  { buildFailureSummary result with collectionReason := some "malformed_response" }

def evaluateOrgAlertOutcome (result : ApiOutcome) : Except OrgAlertSummary (List Json) :=
  match result with
  | .success _ (some (.array items)) false => .ok items
  | .success _ _ false => .error (malformedSummary result)
  | .success .. | .failure .. => .error (buildFailureSummary result)

def classifiedOrgOutcome (run : RequestRun) : Except OrgAlertSummary ApiOutcome :=
  match run.result with
  | .failed (.malformedPayload ..) _ => .error (malformedSummary run.outcome)
  | _ => .ok run.outcome

/-! ## Correlation -/

/-- What the inventory is known by: identifiers, and node identifiers as their aliases. -/
structure KnownScope where
  repos : KeyMap Repository
  collision : Bool

def KnownScope.collides (scope : KnownScope) (key : String) (repo : Repository) : Bool :=
  (scope.repos[key]?).any fun existing => existing.id ≠ repo.id

def KnownScope.add (scope : KnownScope) (repo : Repository) : KnownScope :=
  let scope : KnownScope :=
    ⟨scope.repos.insert (scopeKey repo) repo,
      scope.collision || scope.collides (scopeKey repo) repo⟩
  match repo.nodeId with
  | none => scope
  | some nodeId =>
    ⟨scope.repos.insert nodeId repo, scope.collision || scope.collides nodeId repo⟩

def knownScope (repositories : List Repository) : KnownScope :=
  repositories.foldl KnownScope.add ⟨∅, false⟩

inductive AlertCorrelation where
  | matched (repo : Repository)
  | outOfScope
  | conflicting
  | unidentifiable
deriving DecidableEq

/-- A numeric identifier as it is printed, or one that is a text already. -/
def idText : Json → Option String
  | .number (.integer value) =>
    if 0 ≤ value ∧ value < 2 ^ 64 then some (toString value.toNat) else none
  | .string value => some value
  | _ => none

def correlateAlert (alert : Json) (scope : KeyMap Repository) : AlertCorrelation :=
  match (alert.get "repository").filter Json.isObject with
  | none => .unidentifiable
  | some repository =>
    let numId := ((repository.get "id").bind idText).filter fun id => id ≠ ""
    let nodeId := ((repository.get "node_id").bind Json.asStr).filter fun id => id ≠ ""
    match numId.bind fun id => scope[id]?, nodeId.bind fun id => scope[id]? with
    | some repoNum, some repoNode =>
      if repoNum.id ≠ repoNode.id then .conflicting else .matched repoNum
    | some repo, none | none, some repo => .matched repo
    | none, none => if numId = none ∧ nodeId = none then .unidentifiable else .outOfScope

/-! ## Counting -/

def emptyRepoSummary : RepoAlertSummary := ⟨0, none, none⟩

/-- The time to track, if there is one. -/
def track (current candidate : Option String) (keepOldest : Bool) : Option String :=
  match candidate with
  | none => current
  | some candidate => trackTimestamp current candidate keepOldest

def createdAt (alert : Json) : Option String := (alert.get "created_at").bind Json.asStr

/-- The normalised time of an alert. -/
def createdTime (clock : AlertClock) (alert : Json) : Option String :=
  (createdAt alert).bind (normalizeIso8601 clock)

def bucketKey (clock : AlertClock) (now : ℤ) (alert : Json) : String :=
  ((createdAt alert).bind fun time => ageBucket clock time now).getD secretAlertUnknownAgeBucket

def countAlert (s : RepoAlertSummary) (created : Option String) : RepoAlertSummary where
  openAlertCount := s.openAlertCount + 1
  oldestOpenAlertCreatedAt := track s.oldestOpenAlertCreatedAt created true
  newestOpenAlertCreatedAt := track s.newestOpenAlertCreatedAt created false

def processAlert (clock : AlertClock) (now : ℤ) (scope : KeyMap Repository)
    (summary : OrgAlertSummary) (alert : Json) : OrgAlertSummary :=
  match correlateAlert alert scope with
  | .outOfScope => summary
  | .conflicting =>
    { summary with
      collectionStatus := .unavailable
      collectionReason := some "alert_coordinate_conflict" }
  | .unidentifiable =>
    { summary with
      collectionStatus := .unavailable
      collectionReason := some "alert_correlation_unidentifiable" }
  | .matched repo =>
    let key := scopeKey repo
    let created := createdTime clock alert
    let bucket := bucketKey clock now alert
    { summary with
      perRepo := summary.perRepo.insert key
        (countAlert ((summary.perRepo[key]?).getD emptyRepoSummary) created)
      totalOpenSecretAlerts := summary.totalOpenSecretAlerts + 1
      oldestOpenSecretAlertCreatedAt := track summary.oldestOpenSecretAlertCreatedAt created true
      newestOpenSecretAlertCreatedAt := track summary.newestOpenSecretAlertCreatedAt created false
      openSecretAlertAgeBuckets := summary.openSecretAlertAgeBuckets.insert bucket
        ((summary.openSecretAlertAgeBuckets[bucket]?).getD 0 + 1) }

/-! ## Collection -/

/-- The summary that the alerts are counted into. -/
def initialSummary (collision : Bool) (httpStatus : Option UInt16) : OrgAlertSummary where
  collectionStatus := if collision then .unavailable else .success
  collectionReason := if collision then some "repository_alias_collision" else none
  httpStatus := httpStatus
  perRepo := ∅
  openSecretAlertAgeBuckets := emptyAgeBuckets
  totalOpenSecretAlerts := 0
  oldestOpenSecretAlertCreatedAt := none
  newestOpenSecretAlertCreatedAt := none

/-- The alerts that a run of the request returned, or the summary that it degrades to. -/
def alertItems (run : RequestRun) : Except OrgAlertSummary (List Json) :=
  classifiedOrgOutcome run >>= evaluateOrgAlertOutcome

def alertsPath (orgName : String) : String :=
  "/orgs/" ++ orgName ++ "/secret-scanning/alerts?state=open&per_page=100&hide_secret=true"

/-- The collection after the run of its request. -/
def collectOrgAlerts (clock : AlertClock) (run : RequestRun) (repositories : List Repository)
    (runTimestamp : String) : OrgAlertSummary :=
  let now := (clock.calendar.parseIso8601 runTimestamp).getD clock.now
  let scope := knownScope repositories
  match alertItems run with
  | .error summary => summary
  | .ok items =>
    items.foldl (processAlert clock now scope.repos)
      (initialSummary scope.collision run.outcome.statusCode)

end GhReport.Collector.SecretScanning
