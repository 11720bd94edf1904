import GhReport.Collector.RefMatching
import GhReport.Domain.Types

/-! # Branch protection

Rulesets and the legacy protection of the default branch are read into history
signals. A missing endpoint counts as absent only where the caller is known to be
an administrator of the repository.
-/

namespace GhReport.Collector

open Domain GitHub
open Event (IndeterminateReason HistoryProtectionGap)

/-! ## History signals -/

structure HistorySignals where
  forcePushBlocked : Option Bool
  deletionBlocked : Option Bool
deriving DecidableEq

/-- Any block is definitive, and an observed unblock comes before an unobserved signal. -/
def mergeOptionalBlockingSignal (signals : List HistorySignals)
    (select : HistorySignals → Option Bool) : Option Bool :=
  if signals.any fun s => select s = some true then some true
  else if signals.any fun s => select s = some false then some false
  else none

def HistorySignals.merge (signals : List HistorySignals) : Option HistorySignals :=
  if signals.isEmpty then none
  else some {
    forcePushBlocked := mergeOptionalBlockingSignal signals HistorySignals.forcePushBlocked
    deletionBlocked := mergeOptionalBlockingSignal signals HistorySignals.deletionBlocked }

def fromHistorySignals (defaultBranch : String) (forcePushBlocked deletionBlocked : Option Bool)
    (timestamp : String) : BranchProtectionResult :=
  match forcePushBlocked.getD false, deletionBlocked.getD false with
  | true, true => .protected defaultBranch timestamp
  | false, true => .unprotected defaultBranch .forcePushAllowed timestamp
  | true, false => .unprotected defaultBranch .deletionAllowed timestamp
  | false, false => .unprotected defaultBranch .neitherBlocked timestamp

namespace BranchProtection

/-! ## Payloads -/

def summarizeRuleset (ruleset : Json) : HistorySignals :=
  let rules := ((ruleset.get "rules").bind Json.asArray).getD []
  let hasRule (ruleType : String) := rules.any fun rule =>
    ((rule.get "type").bind Json.asStr).getD "" = ruleType
  { forcePushBlocked := some (hasRule "non_fast_forward")
    deletionBlocked := some (hasRule "deletion") }

def summarizeLegacyProtection (protection : Json) : HistorySignals :=
  let blocked (field : String) : Option Bool :=
    (((protection.get field).bind (Json.get "enabled")).bind Json.asBool).map (!·)
  { forcePushBlocked := blocked "allow_force_pushes"
    deletionBlocked := blocked "allow_deletions" }

def rulesetApplies (ruleset : Json) (defaultBranch : String) : Bool :=
  let target := ((ruleset.get "target").bind Json.asStr).bind RulesetTarget.parse
  let enforcement := ((ruleset.get "enforcement").bind Json.asStr).bind RulesetEnforcement.parse
  let refName := (ruleset.get "conditions").bind (Json.get "ref_name")
  let extractPatterns (key : String) : List String :=
    (((refName.bind (Json.get key)).bind Json.asArray).map
      fun arr => arr.filterMap Json.asStr).getD []
  rulesetAppliesToBranch target enforcement (extractPatterns "include") (extractPatterns "exclude")
    defaultBranch defaultBranch

inductive ProtectionEndpoint where
  | rulesets | legacy
deriving DecidableEq

def ProtectionEndpoint.parsePayload (endpoint : ProtectionEndpoint) (data : Option Json)
    (defaultBranch : String) : Option (List HistorySignals) := do
  let data ← data
  match endpoint with
  | rulesets =>
    let rulesets ← data.asArray
    return (rulesets.filter fun ruleset => rulesetApplies ruleset defaultBranch).map
      summarizeRuleset
  | legacy => if data.isObject then return [summarizeLegacyProtection data] else none

/-! ## Access -/

/-- Whether the caller administers the repository; `unknown` is neither. -/
inductive AdminAccess where
  | admin | notAdmin | unknown
deriving DecidableEq

def repoAdminSignal (repoDetailsResult : ApiOutcome) : AdminAccess :=
  if !repoDetailsResult.isOk then .unknown
  else
    match ((repoDetailsResult.data.bind (Json.get "permissions")).bind (Json.get "admin")).bind
      Json.asBool with
    | some true => .admin
    | some false => .notAdmin
    | none => .unknown

/-! ## Endpoints -/

structure EndpointFailure where
  reason : IndeterminateReason
  httpStatus : Option UInt16
deriving DecidableEq

def EndpointFailure.precedence (failure : EndpointFailure) : ℕ :=
  match failure.reason with
  | .permissionDenied => 0
  | .rateLimited => 1
  | .permissionSuspected => 2
  | .transient => 3
  | .invalid => 4
  | .pending => 5

inductive EndpointEvidence where
  | observed (signals : List HistorySignals)
  | confirmedAbsent (httpStatus : Option UInt16)
  | indeterminate (failure : EndpointFailure)
deriving DecidableEq

def EndpointEvidence.failure? : EndpointEvidence → Option EndpointFailure
  | indeterminate failure => some failure
  | _ => none

def EndpointEvidence.signals : EndpointEvidence → List HistorySignals
  | observed signals => signals
  | _ => []

def classifyEndpoint (outcome : ApiOutcome) (endpoint : ProtectionEndpoint)
    (defaultBranch : String) (access : AdminAccess) : EndpointEvidence :=
  match outcome with
  | .success statusCode data _ =>
    match endpoint.parsePayload data defaultBranch with
    | some signals => .observed signals
    | none => .indeterminate ⟨.invalid, some statusCode⟩
  | .failure statusCode _ retryable =>
    if statusCode = some 403 then .indeterminate ⟨.permissionDenied, statusCode⟩
    else if statusCode = some 429 then .indeterminate ⟨.rateLimited, statusCode⟩
    else if statusCode = some 404 then
      match access with
      | .admin => .confirmedAbsent statusCode
      | .notAdmin | .unknown => .indeterminate ⟨.permissionSuspected, statusCode⟩
    else if retryable then .indeterminate ⟨.transient, statusCode⟩
    else .indeterminate ⟨.invalid, statusCode⟩

/-! ## Evaluation -/

inductive ConfirmedAbsence where
  | noControls | authorityConfirmedNotFound
deriving DecidableEq

def ConfirmedAbsence.confirmedNotFound (absence : ConfirmedAbsence) : Bool :=
  absence = authorityConfirmedNotFound

inductive ProtectionEvidence where
  | complete (signals : HistorySignals)
  | incomplete (failure : EndpointFailure)
  | absentControls (absence : ConfirmedAbsence) (httpStatus : Option UInt16)
deriving DecidableEq

/-- The first of the failures with the least precedence. -/
def firstOfLeastPrecedence : List EndpointFailure → Option EndpointFailure
  | [] => none
  | failure :: rest =>
    match firstOfLeastPrecedence rest with
    | some other => if other.precedence < failure.precedence then some other else some failure
    | none => some failure

def classifyEvidence (rulesetsResult legacyResult : ApiOutcome) (defaultBranch : String)
    (access : AdminAccess) : ProtectionEvidence :=
  let rulesets := classifyEndpoint rulesetsResult .rulesets defaultBranch access
  let legacy := classifyEndpoint legacyResult .legacy defaultBranch access
  match firstOfLeastPrecedence ([rulesets, legacy].filterMap EndpointEvidence.failure?) with
  | some failure => .incomplete failure
  | none =>
    match HistorySignals.merge ([rulesets, legacy].flatMap EndpointEvidence.signals) with
    | some signals => .complete signals
    | none =>
      match rulesets, legacy with
      | .confirmedAbsent httpStatus, _ => .absentControls .authorityConfirmedNotFound httpStatus
      | _, .confirmedAbsent httpStatus => .absentControls .authorityConfirmedNotFound httpStatus
      | _, _ => .absentControls .noControls (rulesetsResult.statusCode.or legacyResult.statusCode)

def buildProtectionResult (evidence : ProtectionEvidence) (defaultBranch runTimestamp : String) :
    BranchProtectionResult :=
  match evidence with
  | .incomplete failure =>
    .unobservable defaultBranch failure.reason failure.httpStatus runTimestamp
  | .absentControls absence httpStatus =>
    .unprotected defaultBranch (.absent absence.confirmedNotFound httpStatus) runTimestamp
  | .complete signals =>
    fromHistorySignals defaultBranch signals.forcePushBlocked signals.deletionBlocked runTimestamp

def evaluateOutcomes (rulesetsResult legacyResult : ApiOutcome) (defaultBranch : String)
    (access : AdminAccess) (runTimestamp : String) : BranchProtectionResult :=
  buildProtectionResult (classifyEvidence rulesetsResult legacyResult defaultBranch access)
    defaultBranch runTimestamp

/-- The evaluation of a repository whose name can be put into a path. -/
def evaluate (validName : Bool) (repo : Repository) (rulesets legacy repoDetails : ApiOutcome)
    (runTimestamp : String) : BranchProtectionResult :=
  if !validName then .unobservable repo.defaultBranch .invalid none runTimestamp
  else evaluateOutcomes rulesets legacy repo.defaultBranch (repoAdminSignal repoDetails)
    runTimestamp

end BranchProtection

end GhReport.Collector
