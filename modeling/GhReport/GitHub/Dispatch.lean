import GhReport.GitHub.DetailCache

/-! # Requests and permits

A call to the API acquires permits of the call budget and sends requests. One
permit is acquired before the attempts, and one before each page after the
first; a revalidation acquires its own, and gives it back when nothing changed.
-/

namespace GhReport.GitHub

open Domain

/-! ## Events -/

/-- What a call does to the budget, and the status that answers a request that it sends. -/
inductive ApiEvent where
  | acquired
  | refunded
  | dispatched (answer : Option UInt16)
deriving DecidableEq

/-- The status of the response, if one arrived. -/
def answerOf : Except (String × Bool) Response → Option UInt16
  | .ok response => some response.status
  | .error _ => none

/-- A check of the credential: the answer to the token exchange, if it sends one, and its end. -/
structure CredentialCheck where
  exchange : Option (Option UInt16)
  result : Except String Unit

def CredentialCheck.events (check : CredentialCheck) : List ApiEvent :=
  (check.exchange.map .dispatched).toList

/-! ## Attempts -/

/-- What happens in one attempt: its exchanges, the halt check after it, the credential refresh. -/
structure CallAttempt where
  server : ℕ → String → PageEnvironment
  shouldHalt : Bool
  refresh : CredentialCheck

/-- What happens in one request. -/
structure CallEnvironment where
  halted : Bool
  credential : CredentialCheck
  acquired : Bool
  attempts : ℕ → CallAttempt

def CallAttempt.toAttempt (attempt : CallAttempt) : AttemptEnvironment :=
  ⟨attempt.server, attempt.shouldHalt, attempt.refresh.result⟩

def CallEnvironment.toRequest (env : CallEnvironment) : RequestEnvironment :=
  ⟨env.halted, env.credential.result, env.acquired, fun n => (env.attempts n).toAttempt⟩

section Requests

variable (S : DetailSource)

/-- One request without pages. -/
def requestSingle (sent : Except (String × Bool) Response) : AttemptResult :=
  match sent with
  | .error (error, timeout) => .failure (.transport error timeout)
  | .ok response =>
    if !response.isSuccess then .failure (httpFailureKind response)
    else match readBodyBytesLimited response maxResponseBodyBytes with
      | .error e => .failure (.bodyRead (some response.status) e.message)
      | .ok bodyBytes => parseSingle S.client response.status bodyBytes

/-- The first exchange of an attempt. -/
def CallAttempt.first (attempt : CallAttempt) (path : String) : PageEnvironment :=
  attempt.server 1 (S.client.baseUrl ++ path)

def CallAttempt.run (path : String) (attempt : CallAttempt) : Bool → AttemptResult
  | true => requestPaginated S.client attempt.server path
  | false => requestSingle S (attempt.first S path).sent

/-- The events of one page; only the pages after the first acquire a permit. -/
def pageEvents (server : ℕ → String → PageEnvironment) (s : PageLoop) : List ApiEvent :=
  let pageCount := s.pageCount + 1
  let env := server pageCount s.url
  if env.stops pageCount then []
  else (if pageCount > 1 then [.acquired] else []) ++ [.dispatched (answerOf env.sent)]

def CallAttempt.events (path : String) (attempt : CallAttempt) : Bool → List ApiEvent
  | true => (paginate S.client attempt.server).trace (pageEvents attempt.server)
      ⟨S.client.baseUrl ++ path, 0, []⟩
  | false => [.dispatched (answerOf (attempt.first S path).sent)]

variable (paginate : Bool) (path : String)

/-- An unauthorized attempt is followed, once, by a check of the credential. -/
def refreshes (env : CallEnvironment) (attempts : ℕ) (s : AttemptLoop) : Bool :=
  let attempt := env.attempts s.attempt
  s.attempt < attempts && !attempt.shouldHalt &&
    decide ((attempt.run S path paginate).statusCode = some 401 ∧ ¬ s.staleTokenRetried ∧
      s.attempt < attempts - 1)

/-- The attempts of a request; a failure is retried while there are attempts left. -/
def callLoop (env : CallEnvironment) (attempts : ℕ) : Loop AttemptLoop RequestRun where
  step s :=
    if s.attempt < attempts then
      let attempt := env.attempts s.attempt
      let result := attempt.run S path paginate
      if attempt.shouldHalt then .inl (.fromAttempt result s.attempt true)
      else if result.statusCode = some 401 ∧ ¬ s.staleTokenRetried ∧ s.attempt < attempts - 1 then
        match attempt.refresh.result with
        | .error cause =>
          .inl (.fromAttempt (.failure (.credentialRefreshFailed cause)) s.attempt false)
        | .ok () => .inr ⟨s.attempt + 1, true⟩
      else if result.isRetryable ∧ s.attempt < attempts - 1 then
        .inr { s with attempt := s.attempt + 1 }
      else .inl (.fromAttempt result s.attempt false)
    else .inl (.fromAttempt (.failure (.http 401 "unauthorized" false)) (attempts - 1) false)
  measure s := attempts - s.attempt
  decreasing := by
    intro s s' h
    simp only at h
    split at h
    · split at h
      · cases h
      · split at h
        · split at h
          · cases h
          · cases h
            simp only
            omega
        · split at h
          · cases h
            simp only
            omega
          · cases h
    · cases h

/-- The events of one turn of the attempts. -/
def attemptEvents (env : CallEnvironment) (attempts : ℕ) (s : AttemptLoop) : List ApiEvent :=
  if s.attempt < attempts then
    let attempt := env.attempts s.attempt
    attempt.events S path paginate ++
      if refreshes S paginate path env attempts s then attempt.refresh.events else []
  else []

/-- A request with its retries: one permit is acquired for all of them. -/
def requestRun (env : CallEnvironment) (retries : ℕ) : RequestRun :=
  if env.halted then ⟨.neverDispatched .haltedBeforeDispatch, false⟩
  else match env.credential.result with
    | .error cause => ⟨.neverDispatched (.credentialRefreshFailed cause), false⟩
    | .ok () =>
      if !env.acquired then ⟨.neverDispatched .budgetAcquireCancelled, false⟩
      else (callLoop S paginate path env (retries + 1)).exec ⟨0, false⟩

def requestEvents (env : CallEnvironment) (retries : ℕ) : List ApiEvent :=
  if env.halted then []
  else env.credential.events ++
    match env.credential.result with
    | .error _ => []
    | .ok () =>
      if !env.acquired then []
      else .acquired :: (callLoop S paginate path env (retries + 1)).trace
        (attemptEvents S paginate path env (retries + 1)) ⟨0, false⟩

end Requests

theorem requestRun_paginated (S : DetailSource) (path : String) (env : CallEnvironment)
    (retries : ℕ) :
    requestRun S true path env retries = requestInner S.client env.toRequest path retries :=
  rfl

/-! ## Details of a repository -/

/-- What happens in a revalidation; `reread` is the entry when the cache is read once more. -/
structure RevalidationEnvironment where
  credential : CredentialCheck
  halted : Bool
  acquired : Bool
  sent : Except (String × Bool) (Response × Option String)
  reread : Option CachedResult

namespace RevalidationEnvironment

variable (env : RevalidationEnvironment)

def response : Except (String × Bool) Response := env.sent.map Prod.fst

def answer : Revalidation :=
  match env.credential.result with
  | .error _ => .fallThrough
  | .ok () =>
    if env.halted then .fallThrough
    else if !env.acquired then .fallThrough
    else match env.sent with
      | .error _ => .fallThrough
      | .ok (response, newEtag) =>
        if response.status = 304 then .notModified newEtag
        else if !response.isSuccess then .fallThrough
        else match readBodyBytesLimited response maxResponseBodyBytes with
          | .error _ => .fallThrough
          | .ok bodyBytes =>
            match String.fromUTF8? bodyBytes.toByteArray with
            | none => .fallThrough
            | some body => .success response.status newEtag body

def events : List ApiEvent :=
  env.credential.events ++
    match env.credential.result with
    | .error _ => []
    | .ok () =>
      if env.halted then []
      else if !env.acquired then []
      else [.acquired, .dispatched (answerOf env.response)] ++
        if answerOf env.response = some 304 then [.refunded] else []

/-- What a revalidation returns, if it does not fall through to a full request. -/
def tryEtagRevalidation (S : DetailSource) (cached : CachedResult) : Option ApiOutcome :=
  match env.answer with
  | .fallThrough => none
  | .notModified _ => some cached.served
  | .success statusCode _ body =>
    if body.toList.all isWhitespace then some (.success statusCode none false)
    else match S.client.parseJson body with
      | .ok _ => env.reread.map CachedResult.served
      | .error _ => none

end RevalidationEnvironment

def defaultMaxRetries : ℕ := 2

/-- What happens in a call for the details of a repository. -/
structure DetailsEnvironment where
  cacheHit : Option CachedResult
  revalidation : RevalidationEnvironment
  request : CallEnvironment

/-- The entry that is revalidated: a stale one with an ETag. -/
def DetailsEnvironment.revalidated (env : DetailsEnvironment) : Option CachedResult :=
  env.cacheHit.filter fun cached => cached.stale && cached.etag.isSome

section Details

variable (S : DetailSource) (repoName : String) (env : DetailsEnvironment)

def repoDetailsOutcome : ApiOutcome :=
  match S.sanitizePathSegment repoName with
  | .error e => .failure none ("invalid repo name: " ++ e) false
  | .ok safeName =>
    let path := DetailClient.repoPath S safeName
    match env.cacheHit.filter fun cached => !cached.stale with
    | some cached => cached.served
    | none =>
      (env.revalidated.bind (env.revalidation.tryEtagRevalidation S)).getD
        (requestRun S false path env.request defaultMaxRetries).outcome

def repoDetailsEvents : List ApiEvent :=
  match S.sanitizePathSegment repoName with
  | .error _ => []
  | .ok safeName =>
    let path := DetailClient.repoPath S safeName
    match env.cacheHit.filter fun cached => !cached.stale with
    | some _ => []
    | none =>
      (if env.revalidated.isSome then env.revalidation.events else []) ++
        if (env.revalidated.bind (env.revalidation.tryEtagRevalidation S)).isSome then []
        else requestEvents S false path env.request defaultMaxRetries

end Details

/-! ## Calls -/

inductive ApiCall where
  | request (path : String) (paginate : Bool) (retries : ℕ) (env : CallEnvironment)
  | repoDetails (repoName : String) (env : DetailsEnvironment)

def ApiCall.events (S : DetailSource) : ApiCall → List ApiEvent
  | request path paginate retries env => requestEvents S paginate path env retries
  | repoDetails repoName env => repoDetailsEvents S repoName env

end GhReport.GitHub
