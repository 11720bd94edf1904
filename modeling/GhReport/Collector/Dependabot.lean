import GhReport.Domain.Types
import GhReport.GitHub.Client

/-! # Dependabot security updates

The status is read from the details of the repository; without one the reason
is read from how their lookup ended.
-/

namespace GhReport.Collector.Dependabot

open Domain GitHub
open Event (DependabotStatus)

def extractStatus (data : Json) : Option DependabotStatus := do
  let analysis ← data.get "security_and_analysis"
  let updates ← analysis.get "dependabot_security_updates"
  let status ← updates.get "status"
  let statusStr ← status.asStr
  if statusStr = "enabled" then some .enabled
  else if statusStr = "paused" then some .paused
  else if statusStr = "disabled" then some .disabled
  else none

/-- The evaluation of a repository whose name can be put into a path. -/
def evaluate (validName : Bool) (repoDetails : ApiOutcome) (runTimestamp : String) :
    DependabotResult :=
  if !validName then ⟨.unknown, some "invalid_repo_name", runTimestamp⟩
  else
    match if repoDetails.isOk then repoDetails.data.bind extractStatus else none with
    | some status => ⟨status, none, runTimestamp⟩
    | none =>
      if repoDetails.statusCode = some 403 then ⟨.unknown, some "permission_denied", runTimestamp⟩
      else if repoDetails.isRetryable then ⟨.unknown, some "transient_error", runTimestamp⟩
      else ⟨.unknown, some "insufficient_evidence", runTimestamp⟩

end GhReport.Collector.Dependabot
