import GhReport.GitHub.Client
import GhReport.Inventory.Admitted

/-! # The repository listing

The inventory of a run is one paginated listing of the organisation, mapped item
by item. It is complete only when the listing ended naturally.
-/

namespace GhReport.Inventory

open Domain GitHub

/-- A repository as the API returns it, with the fields that the inventory reads. -/
structure GhRepository where
  id : Option UInt64
  nodeId : Option String
  name : String
  visibility : Option String
  «private» : Option Bool
  language : Option String
  defaultBranch : Option String
  archived : Option Bool
  hasIssues : Option Bool
  updatedAt : Option String
  pushedAt : Option String
  createdAt : Option String
  description : Option String
  fork : Option Bool
  size : Option UInt64
  htmlUrl : Option String
  topics : Option (List String)
  licenseSpdxId : Option String
deriving DecidableEq

/-! ## Items -/

/-- A trimmed branch name; one that is empty or under `refs/` is replaced. -/
def sanitizeDefaultBranch (raw : String) : String :=
  let trimmed := trim raw.toList
  if trimmed.isEmpty || "refs/".toList.isPrefixOf trimmed then "main" else String.ofList trimmed

def resolveVisibility (visibility : Option String) («private» : Option Bool) : Event.Visibility :=
  match visibility with
  | some "public" => .public
  | some "internal" => .internal
  | some "private" => .private
  | _ => if «private».getD false then .private else .public

def deriveIsEmpty (size : Option UInt64) : Bool := size.any fun size => size == 0

def updatedAtNew (raw : String) : Option NonEmptyText :=
  if h : raw ≠ "" then some ⟨raw, h⟩ else none

namespace GhRepository

variable (repo : GhRepository)

/-- The numeric identifier where there is one, else the node identifier, else the name. -/
def inventoryKey : String :=
  match repo.id with
  | some id => toString id
  | none => repo.nodeId.getD repo.name

def toRepository : Repository where
  id :=
    match repo.id with
    | some id => toString id
    | none => "legacy:" ++ repo.name
  nodeId := repo.nodeId
  name := repo.name
  visibility := resolveVisibility repo.visibility repo.private
  language := repo.language
  defaultBranch := sanitizeDefaultBranch (repo.defaultBranch.getD "main")
  archived := repo.archived.getD false
  inventoryKey := repo.inventoryKey
  updatedAt := repo.updatedAt.bind updatedAtNew
  hasIssues := repo.hasIssues.getD false
  pushedAt := repo.pushedAt
  createdAt := repo.createdAt
  description := repo.description
  fork := repo.fork.getD false
  isEmpty := deriveIsEmpty repo.size
  htmlUrl := repo.htmlUrl
  topics := repo.topics.getD []
  licenseSpdx := repo.licenseSpdxId

end GhRepository

/-! ## Listing -/

/-- What a listing is read with: the client, the deserialization of an item, the time. -/
structure Source where
  client : Client
  fromValue : Json → Except String GhRepository
  notAList : String
  fetchedAt : String

namespace Source

variable (S : Source)

def path : String := "/orgs/" ++ S.client.orgName ++ "/repos?type=all&per_page=100"

/-- A list deserializes when each of its items does. -/
def repositoriesFromValue : Json → Except String (List GhRepository)
  | .array items => items.mapM S.fromValue
  | _ => .error S.notAList

def failureReason (response : ApiOutcome) : String :=
  match response.errorMessage, response.statusCode with
  | some message, _ => message
  | none, some status => toString status
  | none, none => "unknown"

/-- Sort by identifier, then by name. -/
def sortRepositories (repositories : List Repository) : List Repository :=
  repositories.insertionSort fun a b => a.id < b.id ∨ a.id = b.id ∧ a.name ≤ b.name

def buildInventoryFromApi (env : RequestEnvironment) : Except InventoryError InventoryPayload :=
  let response := request S.client env S.path 1
  match response with
  | .failure .. => .error (.apiFetchFailed (failureReason response))
  | .success _ none _ => .error (.apiFetchFailed "empty response")
  | .success _ (some data) truncated =>
    match S.repositoriesFromValue data with
    | .error e => .error (.apiFetchFailed ("failed to parse repository list: " ++ e))
    | .ok rawRepos =>
      .ok {
        repositories := sortRepositories (rawRepos.map GhRepository.toRepository)
        complete := !truncated
        inventoryFetchedAt := some S.fetchedAt }

def loadActiveRepositories (env : RequestEnvironment) :
    Except InventoryError ValidatedInventory := do
  let payload ← S.buildInventoryFromApi env
  ValidatedInventory.fromPayload payload

/-- The listing ended naturally, with these repositories. -/
def ListedRepositories (env : RequestEnvironment) (repositories : List GhRepository) : Prop :=
  ∃ items, Listed S.client env S.path items ∧ items.mapM S.fromValue = .ok repositories

variable {S} {env : RequestEnvironment}

/-- An inventory comes from a response with data that parses. -/
theorem buildInventoryFromApi_ok {payload : InventoryPayload}
    (h : S.buildInventoryFromApi env = .ok payload) :
    ∃ status data truncated rawRepos,
      request S.client env S.path 1 = .success status (some data) truncated ∧
      S.repositoriesFromValue data = .ok rawRepos ∧
      payload.repositories = sortRepositories (rawRepos.map GhRepository.toRepository) ∧
      payload.complete = !truncated := by
  unfold buildInventoryFromApi at h
  cases hresponse : request S.client env S.path 1 with
  | failure statusCode error retryable =>
    rw [hresponse] at h
    cases h
  | success statusCode data truncated =>
    rw [hresponse] at h
    cases data with
    | none => cases h
    | some data =>
      dsimp only at h
      cases hraw : S.repositoriesFromValue data with
      | error e =>
        rw [hraw] at h
        cases h
      | ok rawRepos =>
        rw [hraw] at h
        cases h
        exact ⟨statusCode, data, truncated, rawRepos, rfl, hraw, rfl, rfl⟩

theorem buildInventoryFromApi_complete {payload : InventoryPayload}
    (h : S.buildInventoryFromApi env = .ok payload) (hcomplete : payload.complete = true) :
    ∃ repositories, S.ListedRepositories env repositories ∧
      payload.repositories = sortRepositories (repositories.map GhRepository.toRepository) := by
  obtain ⟨status, data, truncated, rawRepos, hresponse, hraw, hrepos, htruncated⟩ :=
    buildInventoryFromApi_ok h
  obtain rfl : truncated = false := by simpa [htruncated] using hcomplete
  obtain ⟨items, hdata, hlisted⟩ := request_listed hresponse
  cases hdata
  exact ⟨rawRepos, ⟨items, hlisted, hraw⟩, hrepos⟩

/-- A complete inventory holds each listed repository once. -/
theorem loadActiveRepositories_complete {v : ValidatedInventory}
    (h : S.loadActiveRepositories env = .ok v) (hcomplete : v.complete = true) :
    ∃ repositories, S.ListedRepositories env repositories ∧
      v.totalDiscovered = v.activeRepos.length ∧
      (v.activeRepos.map Repository.inventoryKey).Nodup ∧
      ∀ r, r ∈ v.activeRepos ↔ r ∈ repositories.map GhRepository.toRepository := by
  unfold loadActiveRepositories at h
  obtain ⟨payload, hpayload, h⟩ := Except.bind_eq_ok_iff.mp h
  unfold ValidatedInventory.fromPayload at h
  obtain ⟨activeRepos, hvalid, h⟩ := Except.bind_eq_ok_iff.mp h
  cases h
  obtain ⟨repositories, hlisted, hpayload'⟩ := buildInventoryFromApi_complete hpayload hcomplete
  obtain ⟨hnodup, hmem⟩ := validateAndDeduplicate_ok (Except.mapError_eq_ok_iff.mp hvalid)
  refine ⟨repositories, hlisted, rfl, hnodup, fun r => ?_⟩
  rw [hmem, hpayload', sortRepositories, List.mem_insertionSort]

end Source

end GhReport.Inventory
