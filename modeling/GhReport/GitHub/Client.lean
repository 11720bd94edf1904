import GhReport.GitHub.Pagination
import GhReport.Library.Effect

/-! # Paginated requests

A listing is fetched page by page. It counts as whole only when each page was
read and the last one named no next page; every other way out is a failure or a
truncation. What the server and the process do is given page by page.
-/

namespace GhReport.GitHub

open Domain

/-! ## JSON -/

inductive JsonNumber where
  | integer (value : ℤ)
  | float (text : String)
deriving DecidableEq

/-- A JSON value; an object keeps its entries as the library returns them. -/
inductive Json where
  | null
  | bool (value : Bool)
  | number (value : JsonNumber)
  | string (value : String)
  | array (items : List Json)
  | object (entries : List (String × Json))

namespace Json

/-- The entry of an object under a key. -/
def get (key : String) : Json → Option Json
  | object entries => entries.lookup key
  | _ => none

def asStr : Json → Option String
  | string value => some value
  | _ => none

def asBool : Json → Option Bool
  | bool value => some value
  | _ => none

def asArray : Json → Option (List Json)
  | array items => some items
  | _ => none

def isObject : Json → Bool
  | object _ => true
  | _ => false

end Json

/-- White space as Unicode defines it. -/
def isWhitespace (c : Char) : Bool :=
  (9 ≤ c.toNat && c.toNat ≤ 13) || c.toNat == 0x20 || c.toNat == 0x85 || c.toNat == 0xA0
    || c.toNat == 0x1680 || (0x2000 ≤ c.toNat && c.toNat ≤ 0x200A) || c.toNat == 0x2028
    || c.toNat == 0x2029 || c.toNat == 0x202F || c.toNat == 0x205F || c.toNat == 0x3000

def trimEnd (text : List Char) : List Char := (text.reverse.dropWhile isWhitespace).reverse

def trim (text : List Char) : List Char := trimEnd (text.dropWhile isWhitespace)

/-- What the client is configured with, and the libraries that it parses and words errors with. -/
structure Client where
  baseUrl : String
  trustedOrigin : String
  orgName : String
  extractOrigin : String → Option String
  parseJson : String → Except String Json
  invalidUtf8 : List UInt8 → String

/-! ## Limits -/

def maxPaginationPages : ℕ := 500
def maxPaginatedItems : ℕ := 500000
def maxResponseBodyBytes : ℕ := 50 * 1024 * 1024
def maxErrorBodyLen : ℕ := 1024

/-! ## Responses -/

/-- A response: its body arrives in chunks, and may break off. -/
structure Response where
  status : UInt16
  link : List (List UInt8)
  contentLength : Option UInt64
  chunks : List (Except String (List UInt8))

def Response.isSuccess (r : Response) : Bool := 200 ≤ r.status && r.status < 300

inductive BodyReadError where
  | contentLengthExceeded (len : UInt64) (maxBytes : ℕ)
  | bodyLengthExceeded (maxBytes : ℕ)
  | chunk (error : String)
deriving DecidableEq

def BodyReadError.message : BodyReadError → String
  | contentLengthExceeded len maxBytes =>
    "response Content-Length (" ++ toString len ++ ") exceeds " ++ toString maxBytes
      ++ " byte limit"
  | bodyLengthExceeded maxBytes =>
    "response body exceeds " ++ toString maxBytes ++ " byte limit"
  | chunk error => "body read error: " ++ error

def readChunk (maxBytes : ℕ) (body : List UInt8) (chunk : Except String (List UInt8)) :
    Except BodyReadError (List UInt8) := do
  let chunk ← chunk.mapError .chunk
  if body.length + chunk.length > maxBytes then .error (.bodyLengthExceeded maxBytes)
  else .ok (body ++ chunk)

def readBodyBytesLimited (r : Response) (maxBytes : ℕ) : Except BodyReadError (List UInt8) :=
  match r.contentLength with
  | some len =>
    if len.toNat > maxBytes then .error (.contentLengthExceeded len maxBytes)
    else r.chunks.foldlM (readChunk maxBytes) []
  | none => r.chunks.foldlM (readChunk maxBytes) []

/-- The text of the body, or nothing where it cannot be read. -/
def readBodyOrDefault (r : Response) : String :=
  match readBodyBytesLimited r maxResponseBodyBytes with
  | .ok bytes => (String.fromUTF8? bytes.toByteArray).getD ""
  | .error _ => ""

/-- The longest prefix of whole characters within a number of bytes. -/
def takeUtf8 : ℕ → List Char → List Char
  | _, [] => []
  | budget, c :: rest =>
    if c.utf8Size ≤ budget then c :: takeUtf8 (budget - c.utf8Size) rest else []

def truncateErrorBody (body : String) : String :=
  if body.utf8ByteSize ≤ maxErrorBodyLen then body
  else String.ofList (takeUtf8 maxErrorBodyLen body.toList) ++ "…[truncated]"

/-! ## Failures and outcomes -/

inductive MalformedPayloadKind where
  | invalidJson
  | emptyBody
  | notAnArray
  | invalidUtf8
deriving DecidableEq

inductive RequestFailureKind where
  | credentialRefreshFailed (cause : String)
  | transport (error : String) (timeout : Bool)
  | http (statusCode : UInt16) (error : String) (retryable : Bool)
  | bodyRead (statusCode : Option UInt16) (error : String)
  | malformedPayload (statusCode : UInt16) (kind : MalformedPayloadKind) (error : String)
deriving DecidableEq

def RequestFailureKind.statusCode : RequestFailureKind → Option UInt16
  | credentialRefreshFailed _ | transport .. => none
  | http statusCode .. | malformedPayload statusCode .. => some statusCode
  | bodyRead statusCode _ => statusCode

def RequestFailureKind.isRetryable : RequestFailureKind → Bool
  | transport .. => true
  | http _ _ retryable => retryable
  | _ => false

inductive ApiOutcome where
  | success (statusCode : UInt16) (data : Option Json) (truncated : Bool)
  | failure (statusCode : Option UInt16) (error : String) (retryable : Bool)

namespace ApiOutcome

def isOk : ApiOutcome → Bool
  | success .. => true
  | failure .. => false

def isTruncated : ApiOutcome → Bool
  | success _ _ truncated => truncated
  | failure .. => false

def statusCode : ApiOutcome → Option UInt16
  | success statusCode .. => some statusCode
  | failure statusCode .. => statusCode

def data : ApiOutcome → Option Json
  | success _ data _ => data
  | failure .. => none

def isRetryable : ApiOutcome → Bool
  | success .. => false
  | failure _ _ retryable => retryable

def errorMessage : ApiOutcome → Option String
  | success .. => none
  | failure _ error _ => some error

end ApiOutcome

def RequestFailureKind.toApiOutcome : RequestFailureKind → ApiOutcome
  | credentialRefreshFailed cause => .failure none ("credential refresh failed: " ++ cause) false
  | transport error timeout => .failure none (if timeout then "timeout" else error) true
  | http statusCode error retryable => .failure (some statusCode) error retryable
  | bodyRead statusCode error => .failure statusCode ("body read error: " ++ error) false
  | malformedPayload statusCode _ error => .failure (some statusCode) error false

inductive AttemptResult where
  | success (statusCode : UInt16) (data : Option Json) (truncated : Bool)
  | failure (kind : RequestFailureKind)

def AttemptResult.statusCode : AttemptResult → Option UInt16
  | success statusCode .. => some statusCode
  | failure kind => kind.statusCode

def AttemptResult.isRetryable : AttemptResult → Bool
  | success .. => false
  | failure kind => kind.isRetryable

/-! ## Pages -/

section Pages

variable (C : Client)

def isSameOrigin (url : String) : Bool :=
  match C.extractOrigin url with
  | some origin => origin == C.trustedOrigin
  | none => false

inductive Continuation where
  | exhausted
  | follow (url : String)
  | refused
  | uninterpretable
deriving DecidableEq

def trustedContinuation (link : List (List UInt8)) : Continuation :=
  match nextLink link with
  | .none => .exhausted
  | .uninterpretable => .uninterpretable
  | .one url => if isSameOrigin C url then .follow url else .refused

/-- The items of a page's body. -/
def pageItems (status : UInt16) (bodyBytes : List UInt8) :
    Except RequestFailureKind (List Json) :=
  match String.fromUTF8? bodyBytes.toByteArray with
  | none =>
    .error (.malformedPayload status .invalidUtf8
      ("malformed paginated response: invalid UTF-8: " ++ C.invalidUtf8 bodyBytes))
  | some body =>
    if body.toList.all isWhitespace then
      .error (.malformedPayload status .emptyBody "malformed paginated response: empty body")
    else match C.parseJson body with
      | .ok (.array items) => .ok items
      | .ok _ =>
        .error (.malformedPayload status .notAnArray
          "malformed paginated response: expected array")
      | .error e => .error (.malformedPayload status .invalidJson ("invalid json: " ++ e))

/-- Add the items of a page to those before it; `true` when they had to be cut. -/
def parsePaginatedPageBody (status : UInt16) (bodyBytes : List UInt8) (allItems : List Json) :
    Except RequestFailureKind (Bool × List Json) := do
  let items ← pageItems C status bodyBytes
  let remaining := maxPaginatedItems - allItems.length
  if items.length > remaining then .ok (true, allItems ++ items.take remaining)
  else .ok (false, allItems ++ items)

def httpFailureKind (r : Response) : RequestFailureKind :=
  .http r.status (truncateErrorBody (readBodyOrDefault r))
    ([429, 500, 502, 503, 504].contains r.status)

/-- What happens at a page: the halt check, the budget, and the request that is sent. -/
structure PageEnvironment where
  halted : Bool
  acquired : Bool
  sent : Except (String × Bool) Response

/-- The pages, the halt or the budget are at their end: the page is not asked for. -/
def PageEnvironment.stops (env : PageEnvironment) (pageCount : ℕ) : Bool :=
  pageCount > maxPaginationPages || env.halted || (pageCount > 1 && !env.acquired)

theorem PageEnvironment.le_of_not_stops {env : PageEnvironment} {pageCount : ℕ}
    (h : ¬ env.stops pageCount = true) : pageCount ≤ maxPaginationPages := by
  by_contra hpages
  exact h (by simp [stops, not_le.mp hpages])

structure PageLoop where
  url : String
  pageCount : ℕ
  allItems : List Json

def PageLoop.done (s : PageLoop) (truncated : Bool) : AttemptResult :=
  .success 200 (some (.array s.allItems)) truncated

/-- A response of a page: the loop returns, or goes on with the page that the response names. -/
def PageLoop.receive (s : PageLoop) (response : Response) : AttemptResult ⊕ PageLoop :=
  if !response.isSuccess then .inl (.failure (httpFailureKind response))
  else
    let continuation := trustedContinuation C response.link
    match readBodyBytesLimited response maxResponseBodyBytes with
    | .error e => .inl (.failure (.bodyRead (some response.status) e.message))
    | .ok bodyBytes =>
      match parsePaginatedPageBody C response.status bodyBytes s.allItems with
      | .error kind => .inl (.failure kind)
      | .ok (true, allItems) => .inl ({ s with allItems := allItems }.done true)
      | .ok (false, allItems) =>
        match continuation with
        | .follow url => .inr { s with url := url, allItems := allItems }
        | .exhausted => .inl ({ s with allItems := allItems }.done false)
        | .refused | .uninterpretable => .inl ({ s with allItems := allItems }.done true)

theorem PageLoop.receive_inr {s s' : PageLoop} {response : Response}
    (h : s.receive C response = .inr s') : s'.pageCount = s.pageCount := by
  unfold receive at h
  split at h
  · cases h
  · simp only at h
    split at h
    · cases h
    · split at h
      · cases h
      · cases h
      · split at h
        · cases h
          rfl
        · cases h
        · cases h
        · cases h

/-- The loop over the pages; `server` gives what happens at the n-th page, at its address. -/
def paginate (server : ℕ → String → PageEnvironment) : Loop PageLoop AttemptResult where
  step s :=
    let s := { s with pageCount := s.pageCount + 1 }
    let env := server s.pageCount s.url
    if env.stops s.pageCount then .inl (s.done true)
    else match env.sent with
      | .error (error, timeout) => .inl (.failure (.transport error timeout))
      | .ok response => s.receive C response
  measure s := maxPaginationPages - s.pageCount
  decreasing := by
    intro s s' h
    simp only at h
    split at h
    · cases h
    · rename_i hstops
      split at h
      · cases h
      · have hpages := PageEnvironment.le_of_not_stops hstops
        have hcount := PageLoop.receive_inr C h
        simp only at hpages hcount
        omega

def requestPaginated (server : ℕ → String → PageEnvironment) (path : String) : AttemptResult :=
  (paginate C server).exec ⟨C.baseUrl ++ path, 0, []⟩

/-! ## Natural ends -/

/-- The page was sent, read and parsed: `items` are its items and `next` is what its links say. -/
structure Fetched (env : PageEnvironment) (items : List Json) (next : NextLink) : Prop where
  intro ::
  received : ∃ response bodyBytes, env.sent = .ok response ∧ response.isSuccess = true ∧
    readBodyBytesLimited response maxResponseBodyBytes = .ok bodyBytes ∧
    pageItems C response.status bodyBytes = .ok items ∧ nextLink response.link = next

/--
From its n-th page on, a listing ended naturally with the items: each page was fetched, and the
last one named no next page.
-/
inductive EndsNaturally (server : ℕ → String → PageEnvironment) :
    ℕ → String → List Json → Prop where
  | last {n : ℕ} {url : String} {items : List Json}
      (h : Fetched C (server n url) items .none) : EndsNaturally server n url items
  | more {n : ℕ} {url next : String} {items rest : List Json}
      (h : Fetched C (server n url) items (.one next)) (hsame : isSameOrigin C next = true)
      (hrest : EndsNaturally server (n + 1) next rest) :
      EndsNaturally server n url (items ++ rest)

variable {C} {server : ℕ → String → PageEnvironment}

theorem parsePaginatedPageBody_ok {status : UInt16} {bodyBytes : List UInt8}
    {allItems allItems' : List Json}
    (h : parsePaginatedPageBody C status bodyBytes allItems = .ok (false, allItems')) :
    ∃ items, pageItems C status bodyBytes = .ok items ∧ allItems' = allItems ++ items := by
  unfold parsePaginatedPageBody at h
  obtain ⟨items, hitems, h⟩ := Except.bind_eq_ok_iff.mp h
  simp only at h
  split at h
  · cases h
  · cases h
    exact ⟨items, hitems, rfl⟩

/-- A page that ends the listing was the last one; a page that goes on named the next one. -/
theorem PageLoop.receive_fetched {s : PageLoop} {response : Response} {env : PageEnvironment}
    (hsent : env.sent = .ok response) :
    (∀ w, s.receive C response = .inl w → ∀ status data, w = .success status data false →
      ∃ items, data = some (.array (s.allItems ++ items)) ∧ Fetched C env items .none) ∧
    ∀ s', s.receive C response = .inr s' →
      ∃ items, s'.allItems = s.allItems ++ items ∧ Fetched C env items (.one s'.url) ∧
        isSameOrigin C s'.url = true := by
  unfold receive
  cases hsuccess : response.isSuccess with
  | false =>
    simp only [Bool.not_false, if_true]
    constructor
    · rintro w ⟨⟩ status data ⟨⟩
    · rintro s' ⟨⟩
  | true =>
    simp only [Bool.not_true, Bool.false_eq_true, if_false]
    cases hread : readBodyBytesLimited response maxResponseBodyBytes with
    | error e =>
      constructor
      · rintro w ⟨⟩ status data ⟨⟩
      · rintro s' ⟨⟩
    | ok bodyBytes =>
      dsimp only
      cases hparse : parsePaginatedPageBody C response.status bodyBytes s.allItems with
      | error kind =>
        constructor
        · rintro w ⟨⟩ status data ⟨⟩
        · rintro s' ⟨⟩
      | ok parsed =>
        obtain ⟨cut, allItems⟩ := parsed
        cases cut with
        | true =>
          constructor
          · rintro w ⟨⟩ status data ⟨⟩
          · rintro s' ⟨⟩
        | false =>
          obtain ⟨items, hitems, rfl⟩ := parsePaginatedPageBody_ok hparse
          have hfetched : ∀ next, nextLink response.link = next → Fetched C env items next :=
            fun next hnext => ⟨response, bodyBytes, hsent, hsuccess, hread, hitems, hnext⟩
          dsimp only [trustedContinuation]
          cases hnext : nextLink response.link with
          | none =>
            constructor
            · rintro w ⟨⟩ status data ⟨⟩
              exact ⟨items, rfl, hfetched _ hnext⟩
            · rintro s' ⟨⟩
          | uninterpretable =>
            constructor
            · rintro w ⟨⟩ status data ⟨⟩
            · rintro s' ⟨⟩
          | one next =>
            dsimp only
            cases hsame : isSameOrigin C next with
            | false =>
              constructor
              · rintro w ⟨⟩ status data ⟨⟩
              · rintro s' ⟨⟩
            | true =>
              constructor
              · rintro w ⟨⟩
              · rintro s' ⟨⟩
                exact ⟨items, rfl, hfetched _ hnext, hsame⟩

/-- An untruncated listing ended naturally, and holds the items of all its pages in order. -/
theorem requestPaginated_endsNaturally {path : String} {status : UInt16} {data : Option Json}
    (h : requestPaginated C server path = .success status data false) :
    ∃ items, data = some (.array items) ∧
      EndsNaturally C server 1 (C.baseUrl ++ path) items := by
  have hrun := (paginate C server).exec_induction
    (P := fun s w => ∀ status data, w = .success status data false →
      ∃ items, data = some (.array (s.allItems ++ items)) ∧
        EndsNaturally C server (s.pageCount + 1) s.url items) ?_ ?_ ⟨C.baseUrl ++ path, 0, []⟩
  · exact hrun status data h
  · intro s w hs status data hw
    simp only [paginate] at hs
    split at hs
    · cases hs
      cases hw
    · split at hs
      · cases hs
        cases hw
      · next hsent =>
        obtain ⟨items, hdata, hfetched⟩ := (PageLoop.receive_fetched hsent).1 w hs status data hw
        exact ⟨items, hdata, .last hfetched⟩
  · intro s s' hs ih status data hw
    simp only [paginate] at hs
    split at hs
    · cases hs
    · split at hs
      · cases hs
      · next hsent =>
        obtain ⟨items, hitems, hfetched, hsame⟩ := (PageLoop.receive_fetched hsent).2 s' hs
        obtain ⟨rest, hdata, hrest⟩ := ih status data hw
        rw [PageLoop.receive_inr C hs] at hrest
        refine ⟨items ++ rest, ?_, .more hfetched hsame hrest⟩
        rw [hdata, hitems, List.append_assoc]

/-! ## Limits of a listing -/

theorem parsePaginatedPageBody_length_le {status : UInt16} {bodyBytes : List UInt8}
    {allItems allItems' : List Json} {cut : Bool} (hlength : allItems.length ≤ maxPaginatedItems)
    (h : parsePaginatedPageBody C status bodyBytes allItems = .ok (cut, allItems')) :
    allItems'.length ≤ maxPaginatedItems := by
  unfold parsePaginatedPageBody at h
  obtain ⟨items, -, h⟩ := Except.bind_eq_ok_iff.mp h
  simp only at h
  split at h
  · cases h
    rw [List.length_append, List.length_take]
    omega
  · cases h
    rw [List.length_append]
    omega

/-- The items that a result brings are within the limit. -/
def AttemptResult.Limited (result : AttemptResult) : Prop :=
  ∀ status items truncated, result = .success status (some (.array items)) truncated →
    items.length ≤ maxPaginatedItems

theorem PageLoop.limited_done {s : PageLoop} (h : s.allItems.length ≤ maxPaginatedItems)
    (truncated : Bool) : (s.done truncated).Limited := by
  rintro status items truncated' hdone
  cases hdone
  exact h

theorem AttemptResult.limited_failure (kind : RequestFailureKind) :
    (AttemptResult.failure kind).Limited := nofun

theorem PageLoop.receive_limited {s : PageLoop} (h : s.allItems.length ≤ maxPaginatedItems)
    (response : Response) :
    (∀ w, s.receive C response = .inl w → w.Limited) ∧
      ∀ s', s.receive C response = .inr s' → s'.allItems.length ≤ maxPaginatedItems := by
  unfold receive
  split
  · exact ⟨fun w hw => by cases hw; exact AttemptResult.limited_failure _, nofun⟩
  · dsimp only
    split
    · exact ⟨fun w hw => by cases hw; exact AttemptResult.limited_failure _, nofun⟩
    · split
      · exact ⟨fun w hw => by cases hw; exact AttemptResult.limited_failure _, nofun⟩
      · next hparse =>
        have hlength := parsePaginatedPageBody_length_le h hparse
        exact ⟨fun w hw => by cases hw; exact limited_done hlength _, nofun⟩
      · next hparse =>
        have hlength := parsePaginatedPageBody_length_le h hparse
        split
        · exact ⟨nofun, fun s' hs' => by cases hs'; exact hlength⟩
        · exact ⟨fun w hw => by cases hw; exact limited_done hlength _, nofun⟩
        · exact ⟨fun w hw => by cases hw; exact limited_done hlength _, nofun⟩
        · exact ⟨fun w hw => by cases hw; exact limited_done hlength _, nofun⟩

theorem requestPaginated_limited (path : String) : (requestPaginated C server path).Limited := by
  refine (paginate C server).exec_induction
    (P := fun s w => s.allItems.length ≤ maxPaginatedItems → w.Limited) ?_ ?_
    ⟨C.baseUrl ++ path, 0, []⟩ (Nat.zero_le _)
  · intro s w hs h
    simp only [paginate] at hs
    split at hs
    · cases hs
      exact PageLoop.limited_done h _
    · split at hs
      · cases hs
        exact AttemptResult.limited_failure _
      · exact (PageLoop.receive_limited (s := ⟨s.url, s.pageCount + 1, s.allItems⟩) h _).1 w hs
  · intro s s' hs ih h
    refine ih ?_
    simp only [paginate] at hs
    split at hs
    · cases hs
    · split at hs
      · cases hs
      · exact (PageLoop.receive_limited (s := ⟨s.url, s.pageCount + 1, s.allItems⟩) h _).2 s' hs

end Pages

/-! ## Attempts -/

/-- The parsed body of a response without pages. -/
def parseSingle (C : Client) (statusCode : UInt16) (bodyBytes : List UInt8) : AttemptResult :=
  match String.fromUTF8? bodyBytes.toByteArray with
  | none => .failure (.malformedPayload statusCode .invalidUtf8
      ("response body is not valid UTF-8: " ++ C.invalidUtf8 bodyBytes))
  | some body =>
    if body.toList.all isWhitespace then .success statusCode none false
    else match C.parseJson body with
      | .ok data => .success statusCode (some data) false
      | .error e => .failure (.malformedPayload statusCode .invalidJson ("invalid json: " ++ e))

inductive PreDispatchFailure where
  | haltedBeforeDispatch
  | credentialRefreshFailed (cause : String)
  | budgetAcquireCancelled
deriving DecidableEq

inductive RunResult where
  | neverDispatched (cause : PreDispatchFailure)
  | success (statusCode : UInt16) (data : Option Json) (truncated : Bool) (attempts : ℕ)
  | failed (failure : RequestFailureKind) (attempts : ℕ)

structure RequestRun where
  result : RunResult
  haltTriggered : Bool

def RequestRun.fromAttempt (result : AttemptResult) (attempt : ℕ) (haltTriggered : Bool) :
    RequestRun where
  result :=
    match result with
    | .success statusCode data truncated => .success statusCode data truncated (attempt + 1)
    | .failure failure => .failed failure (attempt + 1)
  haltTriggered := haltTriggered

def haltThreshold : ℕ := 50

def RequestRun.outcome (run : RequestRun) : ApiOutcome :=
  match run.result with
  | .neverDispatched .haltedBeforeDispatch =>
    .failure none ("rate limit halt: remaining < " ++ toString haltThreshold) false
  | .neverDispatched (.credentialRefreshFailed cause) =>
    .failure none ("credential refresh failed: " ++ cause) false
  | .neverDispatched .budgetAcquireCancelled => .failure none "budget acquire cancelled" false
  | .success statusCode data truncated _ => .success statusCode data truncated
  | .failed failure _ => failure.toApiOutcome

/-- What happens in one attempt: its pages, the halt check after it, the credential refresh. -/
structure AttemptEnvironment where
  server : ℕ → String → PageEnvironment
  shouldHalt : Bool
  refresh : Except String Unit

/-- What happens in one request. -/
structure RequestEnvironment where
  halted : Bool
  credential : Except String Unit
  acquired : Bool
  attempts : ℕ → AttemptEnvironment

structure AttemptLoop where
  attempt : ℕ
  staleTokenRetried : Bool

section Requests

variable (C : Client)

/-- The attempts of a request; a failure is retried while there are attempts left. -/
def attemptLoop (env : RequestEnvironment) (path : String) (attempts : ℕ) :
    Loop AttemptLoop RequestRun where
  step s :=
    if s.attempt < attempts then
      let attemptEnv := env.attempts s.attempt
      let result := requestPaginated C attemptEnv.server path
      if attemptEnv.shouldHalt then .inl (.fromAttempt result s.attempt true)
      else if result.statusCode = some 401 ∧ ¬ s.staleTokenRetried ∧ s.attempt < attempts - 1 then
        match attemptEnv.refresh with
        | .error cause =>
          .inl (.fromAttempt (.failure (.credentialRefreshFailed cause)) s.attempt false)
        | .ok () => .inr ⟨s.attempt + 1, true⟩
      else if result.isRetryable ∧ s.attempt < attempts - 1 then
        .inr { s with attempt := s.attempt + 1 }
      else .inl (.fromAttempt result s.attempt false)
    else .inl (.fromAttempt (.failure (.http 401 "unauthorized" false)) (attempts - 1) false)
  measure s := attempts - s.attempt
  decreasing := by
    intro s s' h
    simp only at h
    split at h
    · split at h
      · cases h
      · split at h
        · split at h
          · cases h
          · cases h
            simp only
            omega
        · split at h
          · cases h
            simp only
            omega
          · cases h
    · cases h

/-- A paginated request with its retries. -/
def requestInner (env : RequestEnvironment) (path : String) (retries : ℕ) : RequestRun :=
  if env.halted then ⟨.neverDispatched .haltedBeforeDispatch, false⟩
  else match env.credential with
    | .error cause => ⟨.neverDispatched (.credentialRefreshFailed cause), false⟩
    | .ok () =>
      if !env.acquired then ⟨.neverDispatched .budgetAcquireCancelled, false⟩
      else (attemptLoop C env path (retries + 1)).exec ⟨0, false⟩

def request (env : RequestEnvironment) (path : String) (retries : ℕ) : ApiOutcome :=
  (requestInner C env path retries).outcome

/-- The listing at a path ended naturally in one of the attempts of the request. -/
def Listed (env : RequestEnvironment) (path : String) (items : List Json) : Prop :=
  ∃ attempt, EndsNaturally C (env.attempts attempt).server 1 (C.baseUrl ++ path) items

variable {C} {env : RequestEnvironment} {path : String} {retries : ℕ}

theorem outcome_fromAttempt {result : AttemptResult} {attempt : ℕ} {halt : Bool}
    {status : UInt16} {data : Option Json} {truncated : Bool}
    (h : (RequestRun.fromAttempt result attempt halt).outcome = .success status data truncated) :
    result = .success status data truncated := by
  cases result with
  | success statusCode data' truncated' =>
    cases h
    rfl
  | failure kind =>
    cases kind <;> cases h

/-- A successful request returns what one of its attempts returned. -/
theorem request_success {status : UInt16} {data : Option Json} {truncated : Bool}
    (h : request C env path retries = .success status data truncated) :
    ∃ attempt, requestPaginated C (env.attempts attempt).server path =
      .success status data truncated := by
  have hloop : ∀ s, ((attemptLoop C env path (retries + 1)).exec s).outcome =
      .success status data truncated →
      ∃ attempt, requestPaginated C (env.attempts attempt).server path =
        .success status data truncated := by
    intro s
    apply (attemptLoop C env path (retries + 1)).exec_induction
      (P := fun _ w => w.outcome = .success status data truncated →
        ∃ attempt, requestPaginated C (env.attempts attempt).server path =
          .success status data truncated)
    · intro s w hs hw
      simp only [attemptLoop] at hs
      split at hs
      · split at hs
        · cases hs
          exact ⟨s.attempt, outcome_fromAttempt hw⟩
        · split at hs
          · split at hs
            · cases hs
              cases hw
            · cases hs
          · split at hs
            · cases hs
            · cases hs
              exact ⟨s.attempt, outcome_fromAttempt hw⟩
      · cases hs
        cases hw
    · intro s s' _ ih hw
      exact ih hw
  unfold request requestInner at h
  split at h
  · cases h
  · split at h
    · cases h
    · split at h
      · cases h
      · exact hloop _ h

/-- A successful request that is not truncated listed everything at its path. -/
theorem request_listed {status : UInt16} {data : Option Json}
    (h : request C env path retries = .success status data false) :
    ∃ items, data = some (.array items) ∧ Listed C env path items := by
  obtain ⟨attempt, hattempt⟩ := request_success h
  obtain ⟨items, hdata, hends⟩ := requestPaginated_endsNaturally hattempt
  exact ⟨items, hdata, attempt, hends⟩

/-- A listing that a request returns is within the limit. -/
theorem request_length_le {status : UInt16} {items : List Json} {truncated : Bool}
    (h : request C env path retries = .success status (some (.array items)) truncated) :
    items.length ≤ maxPaginatedItems := by
  obtain ⟨attempt, hattempt⟩ := request_success h
  exact requestPaginated_limited path _ _ _ hattempt

end Requests

end GhReport.GitHub
