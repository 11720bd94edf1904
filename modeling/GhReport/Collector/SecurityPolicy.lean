import GhReport.Domain.Types
import GhReport.GitHub.Client

/-! # Security policy

The setting of the repository comes first; then its files are looked up one after
another, and what went wrong on the way is kept for the verdict.
-/

namespace GhReport.Collector.SecurityPolicy

open Domain GitHub
open Event (IndeterminateReason)

def securityPolicyPaths : List String := ["SECURITY.md", ".github/SECURITY.md", "docs/SECURITY.md"]

def securityPolicyPathNew (raw : String) : Option NonEmptyText :=
  if h : raw ≠ "" then some ⟨raw, h⟩ else none

def buildResult (status : SecurityPolicyStatus) (evidence : SecurityPolicyEvidence)
    (path : Option String) (timestamp : String) : SecurityPolicyResult :=
  match status, evidence, path with
  | .pass, .setting, _ => .enabledBySetting timestamp
  | .pass, .file, some path =>
    match securityPolicyPathNew path with
    | some path => .enabledByFile path timestamp
    | none => .unobservable .invalid timestamp
  | .fail, .absent, _ => .absent timestamp
  | .notApplicable, _, _ => .notApplicable timestamp
  | _, .permissionDenied, _ => .unobservable .permissionDenied timestamp
  | _, .transientError, _ => .unobservable .transient timestamp
  | _, _, _ => .unobservable .invalid timestamp

/-! ## Failures -/

/-- The payload of a lookup is of the shape that it is read as. -/
def validPayload (contents : Bool) (data : Option Json) : Bool :=
  match contents, data with
  | true, some (.array _) => true
  | true, some data =>
    ((data.get "type").bind Json.asStr).any ["file", "dir", "submodule", "symlink"].contains
  | false, some data =>
    data.isObject &&
      match data.get "is_security_policy_enabled" with
      | none | some (.bool _) | some .null => true
      | some _ => false
  | _, none => false

def policyFailure (outcome : ApiOutcome) (contents : Bool) : Option IndeterminateReason :=
  match outcome with
  | .success _ data _ => if validPayload contents data then none else some .invalid
  | .failure statusCode _ retryable =>
    if statusCode = some 401 ∨ statusCode = some 403 then some .permissionDenied
    else if statusCode = some 404 ∧ contents then none
    else if statusCode = some 429 then some .rateLimited
    else if retryable then some .transient
    else some .invalid

def priority : IndeterminateReason → ℕ
  | .permissionDenied => 0
  | .permissionSuspected => 1
  | .rateLimited => 2
  | .transient => 3
  | .invalid => 4
  | .pending => 5

/-- The failure that is kept of two; the earlier one stays unless the later one outranks it. -/
def recordPolicyFailure (current : Option IndeterminateReason) (next : IndeterminateReason) :
    Option IndeterminateReason :=
  match current with
  | none => some next
  | some previous => if priority next < priority previous then some next else some previous

def permissionStatus (outcome : ApiOutcome) : Bool :=
  outcome.statusCode = some 401 || outcome.statusCode = some 403

def retryableError (outcome : ApiOutcome) : Bool :=
  outcome.isRetryable && outcome.statusCode != some 429

/-! ## Evaluation -/

/-- What the lookups so far have seen. -/
structure PolicyLookups where
  sawPermissionDenied : Bool
  sawRetryableError : Bool
  otherFailure : Option IndeterminateReason
deriving DecidableEq

def PolicyLookups.record (seen : PolicyLookups) (content : ApiOutcome) : PolicyLookups where
  sawPermissionDenied := seen.sawPermissionDenied || permissionStatus content
  sawRetryableError := seen.sawRetryableError || retryableError content
  otherFailure :=
    match policyFailure content true with
    | some reason => recordPolicyFailure seen.otherFailure reason
    | none => seen.otherFailure

def isFile (content : ApiOutcome) : Bool :=
  content.isOk && (content.data.bind (Json.get "type")).bind Json.asStr = some "file"

/-- The lookups of the files, up to the first one that is there. -/
def checkPolicyFiles (contents : String → ApiOutcome) (runTimestamp : String) :
    List String → PolicyLookups → SecurityPolicyResult ⊕ PolicyLookups
  | [], seen => .inr seen
  | filePath :: rest, seen =>
    let content := contents filePath
    if isFile content then .inl (buildResult .pass .file (some filePath) runTimestamp)
    else checkPolicyFiles contents runTimestamp rest (seen.record content)

def PolicyLookups.verdict (seen : PolicyLookups) (runTimestamp : String) : SecurityPolicyResult :=
  if seen.sawPermissionDenied then buildResult .unknown .permissionDenied none runTimestamp
  else if seen.sawRetryableError ∧ seen.otherFailure ≠ some .rateLimited then
    buildResult .unknown .transientError none runTimestamp
  else
    match seen.otherFailure with
    | some reason => .unobservable reason runTimestamp
    | none => buildResult .fail .absent none runTimestamp

def enabledBySetting (repoDetails : ApiOutcome) : Bool :=
  repoDetails.isOk &&
    ((repoDetails.data.bind (Json.get "is_security_policy_enabled")).bind Json.asBool).getD false

/-- The evaluation of a repository whose name can be put into a path. -/
def evaluate (validName : Bool) (repo : Repository) (repoDetails : ApiOutcome)
    (contents : String → ApiOutcome) (runTimestamp : String) : SecurityPolicyResult :=
  if !validName then buildResult .unknown .collectionError none runTimestamp
  else if !repo.isPublic then buildResult .notApplicable .notApplicable none runTimestamp
  else if enabledBySetting repoDetails then buildResult .pass .setting none runTimestamp
  else
    match checkPolicyFiles contents runTimestamp securityPolicyPaths
      ⟨permissionStatus repoDetails, retryableError repoDetails, policyFailure repoDetails false⟩
    with
    | .inl result => result
    | .inr seen => seen.verdict runTimestamp

end GhReport.Collector.SecurityPolicy
