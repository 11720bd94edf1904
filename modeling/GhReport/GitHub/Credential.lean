import GhReport.Event.Types
import GhReport.GitHub.Client
import GhReport.Library.Effect
import GhReport.Library.Machine
import Mathlib.Logic.Function.Basic
import Mathlib.Algebra.Group.Nat.Defs
import Mathlib.Algebra.GroupWithZero.Nat
import Mathlib.Algebra.Group.Int.Defs

/-! # Refreshing the credential

Any number of tasks ensure the credential before they send. A task reads the
published expiry twice, before it waits for the refresh lock and under it, and
exchanges the token only if both readings find it stale. The header of the
requests, the credential and its expiry are stored one after the other.
-/

namespace GhReport.GitHub

open Event

/-! ## Credentials -/

/-- A credential; when it expires is a number of seconds since the epoch. -/
structure GitHubCredential where
  mode : AuthMode
  token : String
  expiresAt : Option ℤ
deriving DecidableEq

namespace GitHubCredential

def fromInstallationToken (token : String) (expiresAt : ℤ) : GitHubCredential :=
  ⟨.gitHubApp, token, some expiresAt⟩

/-- Zero for a token that never expires. -/
def expiresAtUnix (c : GitHubCredential) : ℕ :=
  (c.expiresAt.map fun ts => (ts % 2 ^ 64).toNat).getD 0

/-- The value of the header that carries the token. -/
def bearer (c : GitHubCredential) : String := "Bearer " ++ c.token

end GitHubCredential

structure GitHubAppConfig where
  appId : ℕ
  privateKeyPem : String
  installationId : ℕ

def tokenRefreshBuffer : ℕ := 5 * 60

/-- A published expiry within the buffer of the clock; zero is never. -/
def needsRefresh (exp now : ℕ) : Bool :=
  if exp = 0 then false else exp ≤ now + tokenRefreshBuffer

/-- The libraries of the exchange: header values, the body of the answer, and its time. -/
structure TokenLibraries where
  isHeaderValue : String → Bool
  invalidUtf8 : List UInt8 → String
  parseResponse : String → Except String (String × String)
  parseTimestamp : String → Except String ℤ

/-! ## The exchange -/

section Exchange

variable (L : TokenLibraries)

def readBodyLimited (r : Response) (maxBytes : ℕ) : Except String String := do
  let bytes ← (readBodyBytesLimited r maxBytes).mapError
    fun e => "invalid response: " ++ e.message
  match String.fromUTF8? bytes.toByteArray with
  | some body => .ok body
  | none => .error ("invalid response: response body is not valid UTF-8: " ++ L.invalidUtf8 bytes)

/-- The credential in the answer; every error is a reason why the authentication failed. -/
def exchangeResult (sent : Except String Response) : Except String GitHubCredential := do
  let response ← sent.mapError ("installation token exchange failed: " ++ ·)
  if response.isSuccess then
    let body ← (readBodyLimited L response maxResponseBodyBytes).mapError
      ("failed to read installation token response: " ++ ·)
    let tokenResponse ← (L.parseResponse body).mapError
      ("invalid installation token response: " ++ ·)
    let expiresAt ← (L.parseTimestamp tokenResponse.2).mapError
      ("invalid expires_at in token response: " ++ ·)
    .ok (.fromInstallationToken tokenResponse.1 expiresAt)
  else
    .error ("installation token exchange returned " ++ toString response.status ++ ": "
      ++ truncateErrorBody (readBodyOrDefault response))

/-- The credential that is stored: its token has to make a header value. -/
def obtainCredential (sent : Except String Response) : Except String GitHubCredential := do
  let newCred ← exchangeResult L sent
  if L.isHeaderValue newCred.bearer then .ok newCred else .error "invalid token characters"

/-- What is obtained is an installation token, and expires when its answer says. -/
theorem obtainCredential_ok {sent : Except String Response} {c : GitHubCredential}
    (h : obtainCredential L sent = .ok c) :
    ∃ token text expiresAt, L.parseTimestamp text = .ok expiresAt ∧
      c = .fromInstallationToken token expiresAt := by
  obtain ⟨newCred, hn, hc⟩ := Except.bind_eq_ok_iff.mp h
  have hc : newCred = c := by
    split at hc
    · exact Except.ok.inj hc
    · cases hc
  obtain ⟨response, -, hn⟩ := Except.bind_eq_ok_iff.mp hn
  split at hn
  · obtain ⟨body, -, hn⟩ := Except.bind_eq_ok_iff.mp hn
    obtain ⟨tokenResponse, -, hn⟩ := Except.bind_eq_ok_iff.mp hn
    obtain ⟨expiresAt, he, hn⟩ := Except.bind_eq_ok_iff.mp hn
    exact ⟨tokenResponse.1, tokenResponse.2, expiresAt, Except.mapError_eq_ok_iff.mp he,
      hc.symm.trans (Except.ok.inj hn).symm⟩
  · cases hn

/-- The header of the exchange itself. -/
def jwtAuth (jwt : Except String String) : Except String String := do
  let jwt ← jwt
  if L.isHeaderValue ("Bearer " ++ jwt) then .ok ("Bearer " ++ jwt)
  else .error "invalid JWT characters"

end Exchange

/-! ## Tasks -/

/-- Where a task stands in its check; `checked` and `rechecked` hold the expiry that they read. -/
inductive EnsurePhase where
  | idle
  | checked (exp : ℕ)
  | waiting
  | locked
  | rechecked (exp : ℕ)
  | refreshing (config : GitHubAppConfig)
  | exchanging
  | obtained (newCred : GitHubCredential)
  | stored (newCred : GitHubCredential)
  | headed (newCred : GitHubCredential)

/-- The task holds the refresh lock. -/
def EnsurePhase.Holds : EnsurePhase → Prop
  | idle | checked _ | waiting => False
  | _ => True

/-- The task has read a stale expiry under the lock. -/
def EnsurePhase.Refreshes : EnsurePhase → Prop
  | refreshing _ | exchanging | obtained _ | stored _ | headed _ => True
  | _ => False

/-- The client as far as its credential goes, the clock, and the tasks that check it. -/
structure CredentialClient where
  baseUrl : String
  appConfig : Option GitHubAppConfig
  authHeader : String
  credential : GitHubCredential
  credentialExpiresAt : ℕ
  refreshLock : Option ℕ
  now : ℕ
  task : ℕ → EnsurePhase

/-- What the exchange meets: the signed token, and the answer to the request. -/
structure ExchangeEnvironment where
  jwt : Except String String
  sent : Except String Response

/-- A task advances to its next access to what is shared, or is dropped while it waits. -/
inductive CredentialInput where
  | tick (seconds : ℕ)
  | advance (task : ℕ) (env : ExchangeEnvironment)
  | drop (task : ℕ)

inductive CredentialEvent where
  | exchangeSent (url : String)
  | finished (task : ℕ) (result : Except String Unit)
  | dropped

namespace CredentialClient

variable (L : TokenLibraries) (s : CredentialClient) (i : ℕ)

/-- The client as it is built; no task has started a check. -/
def new (credential : GitHubCredential) (baseUrl : String) (appConfig : Option GitHubAppConfig)
    (now : ℕ) : Except String CredentialClient :=
  if L.isHeaderValue credential.bearer then
    .ok ⟨baseUrl, appConfig, credential.bearer, credential, credential.expiresAtUnix, none, now,
      fun _ => .idle⟩
  else .error "invalid token characters"

def setTask (phase : EnsurePhase) : CredentialClient :=
  { s with task := Function.update s.task i phase }

/-- The check ends under the lock, which is released. -/
def finish (result : Except String Unit) : Option CredentialEvent × CredentialClient :=
  (some (.finished i result), { s.setTask i .idle with refreshLock := none })

def exchangeUrl (config : GitHubAppConfig) : String :=
  s.baseUrl ++ "/app/installations/" ++ toString config.installationId ++ "/access_tokens"

def recheck (exp : ℕ) : Option CredentialEvent × CredentialClient :=
  if needsRefresh exp s.now then
    match s.appConfig with
    | some config => (none, s.setTask i (.refreshing config))
    | none =>
      s.finish i (.error "token expired but no GitHub App config available for refresh")
  else s.finish i (.ok ())

/-- A task makes its next step. -/
def advance (env : ExchangeEnvironment) : Option CredentialEvent × CredentialClient :=
  match s.task i with
  | .idle => (none, s.setTask i (.checked s.credentialExpiresAt))
  | .checked exp =>
    if needsRefresh exp s.now then (none, s.setTask i .waiting)
    else (some (.finished i (.ok ())), s.setTask i .idle)
  | .waiting =>
    match s.refreshLock with
    | none => (none, { s.setTask i .locked with refreshLock := some i })
    | some _ => (none, s)
  | .locked => (none, s.setTask i (.rechecked s.credentialExpiresAt))
  | .rechecked exp => s.recheck i exp
  | .refreshing config =>
    match jwtAuth L env.jwt with
    | .ok _ => (some (.exchangeSent (s.exchangeUrl config)), s.setTask i .exchanging)
    | .error reason => s.finish i (.error reason)
  | .exchanging =>
    match obtainCredential L env.sent with
    | .ok newCred => (none, s.setTask i (.obtained newCred))
    | .error reason => s.finish i (.error reason)
  | .obtained newCred => (none, { s.setTask i (.stored newCred) with credential := newCred })
  | .stored newCred =>
    (none, { s.setTask i (.headed newCred) with authHeader := newCred.bearer })
  | .headed newCred =>
    { s with credentialExpiresAt := newCred.expiresAtUnix }.finish i (.ok ())

/-- A task can be dropped where it awaits; the lock is released with it. -/
def dropTask : Option CredentialEvent × CredentialClient :=
  match s.task i with
  | .waiting => (some .dropped, s.setTask i .idle)
  | .exchanging | .obtained _ =>
    (some .dropped, { s.setTask i .idle with refreshLock := none })
  | _ => (none, s)

end CredentialClient

def credentialMachine (L : TokenLibraries) :
    Machine CredentialClient CredentialInput (Option CredentialEvent) where
  step s input :=
    match input with
    | .tick seconds => (none, { s with now := s.now + seconds })
    | .advance i env => s.advance L i env
    | .drop i => s.dropTask i

/-! ## An example -/

def exampleTokenBody : String :=
  "\x7b\"token\":\"ghs_b\",\"expires_at\":\"1970-01-01T03:00:00Z\"\x7d"

/-- The libraries as they answer in the example. -/
def exampleTokenLibraries : TokenLibraries where
  isHeaderValue _ := true
  invalidUtf8 _ := "invalid utf-8 sequence of 1 bytes from index 0"
  parseResponse body :=
    if body = exampleTokenBody then .ok ("ghs_b", "1970-01-01T03:00:00Z")
    else .error "expected value at line 1 column 1"
  parseTimestamp _ := .ok 10800

def exampleExchange : ExchangeEnvironment :=
  ⟨.ok "header.claims.signature",
    .ok ⟨201, [], none, [.ok exampleTokenBody.toUTF8.toList]⟩⟩

/-- Two tasks meet a token that has expired; the first of them refreshes it. -/
def exampleChecks : List CredentialInput :=
  [.advance 0 exampleExchange, .advance 1 exampleExchange, .advance 0 exampleExchange,
    .advance 1 exampleExchange] ++ List.replicate 5 (.advance 0 exampleExchange) ++
    [.tick 2] ++ List.replicate 4 (.advance 0 exampleExchange) ++
    List.replicate 4 (.advance 1 exampleExchange)

def exampleCredential : GitHubCredential := .fromInstallationToken "ghs_a" 3600

def exampleClient : CredentialClient :=
  ⟨"https://api.github.com", some ⟨1, "", 2⟩, "Bearer ghs_a", exampleCredential, 3600, none, 3590,
    fun _ => .idle⟩

end GhReport.GitHub
