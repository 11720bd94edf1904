import GhReport.App.State

/-! # The policy for failed writes

Every error of a write falls into one category, and every category has one
response. Only a transient failure is tried again, a bounded number of times.
-/

namespace GhReport.App

inductive WritePolicyCategory where
  | reconciliationRequired
  | conflict
  | transient
  | structural
  | unrecoverable
deriving DecidableEq

inductive WriteResponse where
  | fatal
  | boundedRetry
  | httpNon2xx
deriving DecidableEq

def WritePolicyCategory.classify : PersistenceError → WritePolicyCategory
  | .indeterminate _ => .reconciliationRequired
  | .fencedConflict .. => .conflict
  | .backendUnavailable _ => .transient
  | .invariantViolation _ => .structural
  | .poisonedState | .tornWriteRecovery _ => .unrecoverable
  | .loadFailed _ | .io _ => .unrecoverable

def WritePolicyCategory.response : WritePolicyCategory → WriteResponse
  | conflict | structural | unrecoverable | reconciliationRequired => .fatal
  | transient => .boundedRetry

/-- A classified failure, with the number of attempts that were made. -/
structure WriteFailure where
  category : WritePolicyCategory
  response : WriteResponse
  error : PersistenceError
  attempt : ℕ

def WriteFailure.classify (error : PersistenceError) : WriteFailure where
  category := .classify error
  response := (WritePolicyCategory.classify error).response
  error := error
  attempt := 1

def boundedRetryAttempts : ℕ := 3

inductive RetryStep where
  | succeeded
  | retryable (failure : WriteFailure)
  | terminal (failure : WriteFailure)

def classifyAttempt (result : Except PersistenceError Unit) (attempt : ℕ) : RetryStep :=
  match result with
  | .ok () => .succeeded
  | .error error =>
    let failure := { WriteFailure.classify error with attempt := attempt }
    match failure.response with
    | .boundedRetry => .retryable failure
    | .fatal | .httpNon2xx => .terminal failure

/-- What follows an attempt: the next operation, another attempt, or the end with an error. -/
inductive Attempted where
  | done
  | again
  | failed
deriving DecidableEq

/-- What `write_with_policy` does after the attempt of this number; a panic ends it. -/
def attempted (attempt : ℕ) : Except (Stop PersistenceError) Unit → Attempted
  | .ok () => .done
  | .error .panic => .failed
  | .error (.error e) =>
    match classifyAttempt (.error e) attempt with
    | .retryable _ => if attempt ≤ boundedRetryAttempts then .again else .failed
    | .succeeded | .terminal _ => .failed

theorem attempted_eq_done {attempt : ℕ} {answer : Except (Stop PersistenceError) Unit}
    (h : attempted attempt answer = .done) : answer = .ok () := by
  unfold attempted at h
  split at h
  · rfl
  · cases h
  · split at h
    · split at h <;> cases h
    · cases h
    · cases h

end GhReport.App
