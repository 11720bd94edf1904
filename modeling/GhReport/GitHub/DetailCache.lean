import GhReport.Domain.Types
import GhReport.GitHub.Client
import GhReport.Library.KeyMap
import GhReport.Library.Machine

/-! # The cache of repository details

A call that asks for the details of a repository reads the cache, revalidates a
stale entry, or sends a request whose ETag reaches the cache through a side map.
Calls interleave freely; every step below is one access to the shared state or
one exchange with the server.
-/

namespace GhReport.GitHub

open Domain

/-! ## Entries -/

/-- An entry; `confirmed` is when its data was last fetched or confirmed, which no step reads. -/
structure CachedResult where
  statusCode : UInt16
  data : Option Json
  etag : Option String
  stale : Bool
  confirmed : ℤ

/-- What a call returns from an entry. -/
def CachedResult.served (cached : CachedResult) : ApiOutcome :=
  .success cached.statusCode cached.data false

/-- An entry as it is handed over between runs; no step reads `confirmed` here either. -/
structure CachedRepoDetail where
  defaultBranch : String
  updatedAt : Option String
  securityAndAnalysis : Option Json
  isSecurityPolicyEnabled : Option Bool
  fetchedAt : ℤ
  etag : Option String
  confirmed : ℤ

/-- An entry with data is exported with the time of the export. -/
def CachedResult.exported (cached : CachedResult) (now : ℤ) : Option CachedRepoDetail :=
  cached.data.map fun data =>
    { defaultBranch := ((data.get "default_branch").bind Json.asStr).getD "main"
      updatedAt := (data.get "updated_at").bind Json.asStr
      securityAndAnalysis := data.get "security_and_analysis"
      isSecurityPolicyEnabled := (data.get "is_security_policy_enabled").bind Json.asBool
      fetchedAt := now
      etag := cached.etag
      confirmed := cached.confirmed }

def CachedRepoDetail.object (detail : CachedRepoDetail) : Json :=
  .object ([("default_branch", .string detail.defaultBranch)]
    ++ (detail.updatedAt.map fun ua => ("updated_at", Json.string ua)).toList
    ++ (detail.securityAndAnalysis.map fun sa => ("security_and_analysis", sa)).toList
    ++ (detail.isSecurityPolicyEnabled.map fun enabled =>
        ("is_security_policy_enabled", Json.bool enabled)).toList)

def CachedRepoDetail.seeded (detail : CachedRepoDetail) : CachedResult where
  statusCode := 200
  data := some detail.object
  etag := detail.etag
  stale := false
  confirmed := detail.confirmed

/-! ## State -/

/-- What a call is about to do; `responseEtag` and `received` are of its response. -/
inductive Call where
  | revalidating (name path etag : String) (data : Option Json) (statusCode : UInt16)
  | rereading (name path : String)
  | requesting (name path : String)
  | responded (name path : String) (outcome : ApiOutcome) (responseEtag : Option String)
      (received : ℤ)
  | storing (name : String) (statusCode : UInt16) (data : Option Json) (etag : Option String)
      (received : ℤ)
  | returned

/-- What the server sent for a repository: a body, or that the data sent before still holds. -/
inductive Exchange where
  | full (name : String) (data : Option Json) (etag : Option String) (time : ℤ)
  | notModified (name : String) (data : Option Json) (sent : String) (etag : Option String)
      (time : ℤ)

/-- The client's state, with a clock; `exchanges` is a history that no step reads. -/
structure DetailClient where
  repoDetailCache : KeyMap CachedResult
  lastResponseEtags : KeyMap String
  calls : List Call
  now : ℤ
  exchanges : List Exchange

/-- What the client runs on: its configuration, and the check of a name. -/
structure DetailSource where
  client : Client
  sanitizePathSegment : String → Except String String

/-- How a revalidation ends; everything that falls through to a full request is one answer. -/
inductive Revalidation where
  | fallThrough
  | notModified (newEtag : Option String)
  | success (statusCode : UInt16) (newEtag : Option String) (body : String)

/-- How a full request ends: without a parsed body, or with the body of its last response. -/
inductive Reply where
  | failure (statusCode : Option UInt16) (error : String) (retryable : Bool)
  | body (statusCode : UInt16) (bodyBytes : List UInt8) (responseEtag : Option String)

inductive DetailInput where
  | repoDetails (name : String)
  | revalidate (call : ℕ) (answer : Revalidation)
  | reread (call : ℕ)
  | respond (call : ℕ) (reply : Reply)
  | takeEtag (call : ℕ)
  | store (call : ℕ)
  | cancel (call : ℕ)
  | evictStaleEntries (repos : List (String × Option String))
  | elapse (n : ℕ)

inductive DetailAnswer where
  | silent
  | returned (outcome : ApiOutcome)

namespace DetailClient

variable (S : DetailSource) (c : DetailClient)

/-! ## Steps -/

def setCall (i : ℕ) (call : Call) : DetailClient := { c with calls := c.calls.set i call }

def cacheEntry (name : String) (entry : CachedResult) : DetailClient :=
  { c with repoDetailCache := c.repoDetailCache.insert name entry }

def log (exchange : Exchange) : DetailClient := { c with exchanges := c.exchanges ++ [exchange] }

def repoPath (safeName : String) : String := "/repos/" ++ S.client.orgName ++ "/" ++ safeName

/-- A call reads the cache; a stale entry without an ETag cannot be revalidated. -/
def repoDetails (name : String) : DetailAnswer × DetailClient :=
  match S.sanitizePathSegment name with
  | .error e => (.returned (.failure none ("invalid repo name: " ++ e) false), c)
  | .ok safeName =>
    let path := repoPath S safeName
    match c.repoDetailCache[name]? with
    | some cached =>
      if cached.stale then
        match cached.etag with
        | some etag =>
          (.silent, { c with calls := c.calls ++
            [.revalidating name path etag cached.data cached.statusCode] })
        | none => (.silent, { c with calls := c.calls ++ [.requesting name path] })
      else (.returned cached.served, c)
    | none => (.silent, { c with calls := c.calls ++ [.requesting name path] })

/-- The body of a revalidation is stored, and read back from the cache afterwards. -/
def cacheRevalidatedResponse (i : ℕ) (name path : String) (statusCode : UInt16)
    (newEtag : Option String) (body : String) : DetailAnswer × DetailClient :=
  if body.toList.all isWhitespace then
    let entry := ⟨statusCode, none, newEtag, false, c.now⟩
    (.returned entry.served,
      ((c.log (.full name none newEtag c.now)).cacheEntry name entry).setCall i .returned)
  else
    match S.client.parseJson body with
    | .ok data =>
      (.silent, ((c.log (.full name (some data) newEtag c.now)).cacheEntry name
        ⟨statusCode, some data, newEtag, false, c.now⟩).setCall i (.rereading name path))
    | .error _ => (.silent, c.setCall i (.requesting name path))

def tryEtagRevalidation (i : ℕ) (answer : Revalidation) : DetailAnswer × DetailClient :=
  match c.calls[i]? with
  | some (.revalidating name path etag data statusCode) =>
    match answer with
    | .fallThrough => (.silent, c.setCall i (.requesting name path))
    | .notModified newEtag =>
      let entry := ⟨statusCode, data, newEtag.or (some etag), false, c.now⟩
      (.returned entry.served, ((c.log (.notModified name data etag newEtag c.now)).cacheEntry name
        entry).setCall i .returned)
    | .success statusCode newEtag body =>
      c.cacheRevalidatedResponse S i name path statusCode newEtag body
  | _ => (.silent, c)

def reread (i : ℕ) : DetailAnswer × DetailClient :=
  match c.calls[i]? with
  | some (.rereading name path) =>
    match c.repoDetailCache[name]? with
    | some cached => (.returned cached.served, c.setCall i .returned)
    | none => (.silent, c.setCall i (.requesting name path))
  | _ => (.silent, c)

/-- The parsed body of a response, and the side map, with its ETag if the body could be parsed. -/
def parseSingleBody (path : String) (statusCode : UInt16) (bodyBytes : List UInt8)
    (responseEtag : Option String) : AttemptResult × KeyMap String :=
  match parseSingle S.client statusCode bodyBytes with
  | .failure kind => (.failure kind, c.lastResponseEtags)
  | .success statusCode data truncated =>
    (.success statusCode data truncated,
      match responseEtag with
      | some etag => c.lastResponseEtags.insert path etag
      | none => c.lastResponseEtags)

/-- The last response of a request arrives; its ETag goes to the side map. -/
def respond (i : ℕ) (reply : Reply) : DetailClient :=
  match c.calls[i]? with
  | some (.requesting name path) =>
    match reply with
    | .failure statusCode error retryable =>
      c.setCall i (.responded name path (.failure statusCode error retryable) none c.now)
    | .body statusCode bodyBytes responseEtag =>
      match c.parseSingleBody S path statusCode bodyBytes responseEtag with
      | (.success statusCode data truncated, etags) =>
        ({ c with lastResponseEtags := etags }.log (.full name data responseEtag c.now)).setCall i
          (.responded name path (.success statusCode data truncated) responseEtag c.now)
      | (.failure kind, etags) =>
        { c with lastResponseEtags := etags }.setCall i
          (.responded name path kind.toApiOutcome none c.now)
  | _ => c

/-- The ETag under the path is taken from the side map, also after a failure. -/
def takeEtag (i : ℕ) : DetailAnswer × DetailClient :=
  match c.calls[i]? with
  | some (.responded name path outcome _ received) =>
    let taken := { c with lastResponseEtags := c.lastResponseEtags.erase path }
    match outcome with
    | .success statusCode data _ =>
      (.silent, taken.setCall i (.storing name statusCode data c.lastResponseEtags[path]? received))
    | .failure .. => (.returned outcome, taken.setCall i .returned)
  | _ => (.silent, c)

def store (i : ℕ) : DetailAnswer × DetailClient :=
  match c.calls[i]? with
  | some (.storing name statusCode data etag received) =>
    let entry := ⟨statusCode, data, etag, false, received⟩
    (.returned entry.served, (c.cacheEntry name entry).setCall i .returned)
  | _ => (.silent, c)

/-- An entry whose known time of update is not the current one is stale. -/
def markStale (currentUpdatedAt : Option String) (cached : CachedResult) : CachedResult :=
  match (cached.data.bind (Json.get "updated_at")).bind Json.asStr, currentUpdatedAt with
  | some updatedAt, some current =>
    if updatedAt ≠ current then { cached with stale := true } else cached
  | _, _ => cached

def evictStaleEntry (cache : KeyMap CachedResult) (repo : String × Option String) :
    KeyMap CachedResult :=
  match cache[repo.1]? with
  | some cached => cache.insert repo.1 (markStale repo.2 cached)
  | none => cache

end DetailClient

open DetailClient in
def detailMachine (S : DetailSource) : Machine DetailClient DetailInput DetailAnswer where
  step c
    | .repoDetails name => c.repoDetails S name
    | .revalidate i answer => c.tryEtagRevalidation S i answer
    | .reread i => c.reread i
    | .respond i reply => (.silent, c.respond S i reply)
    | .takeEtag i => c.takeEtag i
    | .store i => c.store i
    | .cancel i => (.silent, c.setCall i .returned)
    | .evictStaleEntries repos =>
      (.silent, { c with repoDetailCache := repos.foldl evictStaleEntry c.repoDetailCache })
    | .elapse n => (.silent, { c with now := c.now + n })

/-- No call is under way, and the server has sent nothing. -/
def DetailClient.init (cache : KeyMap CachedResult) (now : ℤ) : DetailClient :=
  ⟨cache, ∅, [], now, []⟩

/-! ## An example client -/

/-- A client whose parser takes every body for a string. -/
def sampleDetailSource : DetailSource where
  client := ⟨"https://api", "https://api", "org", fun _ => none, fun body => .ok (.string body),
    fun _ => ""⟩
  sanitizePathSegment := .ok

/-- A response of one byte. -/
def sampleRespond (call : ℕ) (byte : UInt8) (etag : String) : DetailInput :=
  .respond call (.body 200 [byte] (some etag))

end GhReport.GitHub
