import GhReport.Aggregate.Counts
import GhReport.Collector.AlertTotals
import GhReport.Inventory.Listing

/-! # Secret scanning observability

The open alerts of the organisation are filed under the identifiers of
repositories and looked up under their inventory keys. The two are the same where
a repository has a numeric identifier.
-/

namespace GhReport.Aggregate

open Domain GitHub Inventory Collector.SecretScanning
open Event (CollectionStatus)

structure SecretScanningObservability where
  collectionStatus : CollectionStatus
  collectionReason : Option String
  totalOpenSecretAlerts : ℕ
  openSecretAlertAgeBuckets : KeyMap ℕ
  oldestOpenSecretAlertCreatedAt : Option String
  newestOpenSecretAlertCreatedAt : Option String
  statusMismatchCount : ℕ
  observableEnabledRepositories : ℕ
  unobservableRepositories : ℕ

def newObservabilitySummary : SecretScanningObservability where
  collectionStatus := .notCollected
  collectionReason := none
  totalOpenSecretAlerts := 0
  openSecretAlertAgeBuckets := emptyAgeBuckets
  oldestOpenSecretAlertCreatedAt := none
  newestOpenSecretAlertCreatedAt := none
  statusMismatchCount := 0
  observableEnabledRepositories := 0
  unobservableRepositories := 0

def mergeAgeBuckets (source : KeyMap UInt64) : KeyMap ℕ :=
  source.foldl (fun (buckets : KeyMap ℕ) key value => buckets.insert key (countAsU32 value.toNat))
    emptyAgeBuckets

def SecretScanningObservability.withAlerts (summary : SecretScanningObservability)
    (alertSummary : OrgAlertSummary) : SecretScanningObservability :=
  { summary with
    collectionStatus := alertSummary.collectionStatus
    collectionReason := alertSummary.collectionReason
    totalOpenSecretAlerts := countAsU32 alertSummary.totalOpenSecretAlerts.toNat
    openSecretAlertAgeBuckets := mergeAgeBuckets alertSummary.openSecretAlertAgeBuckets
    oldestOpenSecretAlertCreatedAt := alertSummary.oldestOpenSecretAlertCreatedAt
    newestOpenSecretAlertCreatedAt := alertSummary.newestOpenSecretAlertCreatedAt }

/-- A mismatch that is recorded, or an alert filed under the inventory key of a disabled one. -/
def statusMismatched (perRepo : KeyMap RepoAlertSummary) (r : RepositoryEvidence) : Bool :=
  let ss := r.checks.secretScanning
  ss.statusMismatch ||
    (ss.status = .disabled && 0 < entryCount perRepo r.repository.inventoryKey)

def SecretScanningObservability.count (perRepo : KeyMap RepoAlertSummary)
    (summary : SecretScanningObservability) (r : RepositoryEvidence) :
    SecretScanningObservability :=
  let ss := r.checks.secretScanning
  let raise (n : ℕ) (holds : Bool) : ℕ := if holds then saturatingAdd n 1 else n
  { summary with
    statusMismatchCount := raise summary.statusMismatchCount (statusMismatched perRepo r)
    observableEnabledRepositories := raise summary.observableEnabledRepositories
      (ss.status = .enabled && ss.alertsObservable)
    unobservableRepositories := raise summary.unobservableRepositories (!ss.alertsObservable) }

def buildSecretScanningObservabilitySummary (repositories : List RepositoryEvidence)
    (orgAlertSummary : Option OrgAlertSummary) : SecretScanningObservability :=
  let active := repositories.filter fun r => !r.repository.archived
  let perRepo := orgAlertSummary.elim ∅ OrgAlertSummary.perRepo
  active.foldl (SecretScanningObservability.count perRepo)
    (orgAlertSummary.elim newObservabilitySummary newObservabilitySummary.withAlerts)

theorem statusMismatchCount_build (repositories : List RepositoryEvidence)
    (orgAlertSummary : Option OrgAlertSummary) :
    (buildSecretScanningObservabilitySummary repositories orgAlertSummary).statusMismatchCount =
      min (repositories.countP fun r => statusMismatched
        (orgAlertSummary.elim ∅ OrgAlertSummary.perRepo) r && !r.repository.archived) u32Max := by
  have hzero : (orgAlertSummary.elim newObservabilitySummary
      newObservabilitySummary.withAlerts).statusMismatchCount = 0 := by
    cases orgAlertSummary <;> rfl
  rw [← List.countP_filter]
  exact Tally.foldl_countP_of_zero SecretScanningObservability.statusMismatchCount _
    (fun _ _ => rfl) hzero _

/-! ## Attributed alerts -/

/-- The alerts of a request that returned a whole listing. -/
def openAlerts (run : RequestRun) : List Json :=
  match alertItems run with
  | .ok items => items
  | .error _ => []

/-- Some alert is attributed to the repository with this identifier. -/
def attributed (repositories : List Repository) (alerts : List Json) (id : String) : Bool :=
  alerts.any fun alert => attributedKey (knownScope repositories).repos alert = some id

section Attributed

variable {clock : AlertClock} {run : RequestRun} {repositories : List Repository}
  {runTimestamp : String}

theorem perRepo_of_error {summary : OrgAlertSummary} (h : alertItems run = .error summary) :
    summary.perRepo = ∅ := by
  unfold alertItems classifiedOrgOutcome at h
  split at h
  · cases h
    rfl
  · change evaluateOrgAlertOutcome run.outcome = .error summary at h
    unfold evaluateOrgAlertOutcome at h
    split at h <;> cases h <;> rfl

theorem ofNat_pos_iff {n : ℕ} (h : n < 2 ^ 64) : 0 < UInt64.ofNat n ↔ 0 < n := by
  rw [UInt64.lt_iff_toNat_lt, UInt64.toNat_ofNat_of_lt' h]
  rfl

/-- A repository has alerts filed under its identifier when some are attributed to it. -/
theorem entryCount_collectOrgAlerts (hlength : (openAlerts run).length < 2 ^ 64) (id : String) :
    decide (0 < entryCount (collectOrgAlerts clock run repositories runTimestamp).perRepo id) =
      attributed repositories (openAlerts run) id := by
  unfold collectOrgAlerts attributed openAlerts at *
  dsimp only at hlength ⊢
  cases h : alertItems run with
  | error summary =>
    dsimp only
    rw [perRepo_of_error h]
    rfl
  | ok items =>
    rw [h] at hlength
    dsimp only at hlength ⊢
    have hempty : entryCount (initialSummary (knownScope repositories).collision
        run.outcome.statusCode).perRepo id = 0 := rfl
    have hle := List.countP_le_length (l := items)
      (p := fun alert => attributedKey (knownScope repositories).repos alert = some id)
    rw [entryCount_foldl, hempty, zero_add, Bool.eq_iff_iff, decide_eq_true_iff,
      ofNat_pos_iff (hle.trans_lt hlength), List.any_eq_true, List.countP_pos_iff]

end Attributed

/-! ## Keys -/

section Keys

variable (attributed : String → Bool) (r : RepositoryEvidence)

/-- The repository counts as mismatching by its own verdict, or by the alerts attributed to it. -/
def mismatching : Bool :=
  let ss := r.checks.secretScanning
  !r.repository.archived &&
    (ss.statusMismatch || (ss.status = .disabled && attributed r.repository.id))

/-- An unarchived repository that is disabled and has recorded no mismatch. -/
def unrecorded : Bool :=
  let ss := r.checks.secretScanning
  !r.repository.archived && ss.status = .disabled && !ss.statusMismatch

/-- It has alerts, but no repository with its inventory key for an identifier has any. -/
def missed : Bool :=
  unrecorded r && attributed r.repository.id && !attributed r.repository.inventoryKey

/-- It has no alerts, but a repository with its inventory key for an identifier has some. -/
def borrowed : Bool :=
  unrecorded r && attributed r.repository.inventoryKey && !attributed r.repository.id

end Keys

/-! ## Inventories from the API -/

theorem length_le_of_buildInventoryFromApi {S : Source} {env : RequestEnvironment}
    {payload : InventoryPayload} (h : S.buildInventoryFromApi env = .ok payload) :
    payload.repositories.length ≤ maxPaginatedItems := by
  obtain ⟨status, data, truncated, rawRepos, hresponse, hraw, hrepos, -⟩ :=
    Source.buildInventoryFromApi_ok h
  cases data with
  | array items =>
    have hitems : items.mapM S.fromValue = .ok rawRepos := hraw
    rw [hrepos, Source.sortRepositories, List.length_insertionSort, List.length_map,
      Except.length_of_mapM_ok hitems]
    exact request_length_le hresponse
  | _ => cases hraw

theorem length_openAlerts_le (C : Client) (env : RequestEnvironment) (path : String)
    (retries : ℕ) :
    (openAlerts (requestInner C env path retries)).length ≤ maxPaginatedItems := by
  unfold openAlerts
  cases h : alertItems (requestInner C env path retries) with
  | error summary => exact Nat.zero_le _
  | ok items =>
    have hevaluate : evaluateOrgAlertOutcome (request C env path retries) = .ok items := by
      unfold alertItems classifiedOrgOutcome at h
      split at h
      · cases h
      · exact h
    unfold evaluateOrgAlertOutcome at hevaluate
    split at hevaluate
    · next hrequest =>
      cases hevaluate
      exact request_length_le hrequest
    · cases hevaluate
    · cases hevaluate
    · cases hevaluate

/-- With identifiers for keys, the summary counts what is attributed; the bound is out of reach. -/
theorem statusMismatchCount_collected {clock : AlertClock} {run : RequestRun}
    {repositories : List Repository} {runTimestamp : String} {evidence : List RepositoryEvidence}
    (halerts : (openAlerts run).length ≤ maxPaginatedItems)
    (hevidence : evidence.length ≤ maxPaginatedItems) :
    (buildSecretScanningObservabilitySummary evidence
      (some (collectOrgAlerts clock run repositories runTimestamp))).statusMismatchCount =
      evidence.countP fun r => !r.repository.archived &&
        (r.checks.secretScanning.statusMismatch || (r.checks.secretScanning.status = .disabled &&
          attributed repositories (openAlerts run) r.repository.inventoryKey)) := by
  have hbound : maxPaginatedItems < u32Max := by decide
  have hlength : (openAlerts run).length < 2 ^ 64 := halerts.trans_lt (by decide)
  rw [statusMismatchCount_build, min_eq_left]
  · congr 1
    funext r
    rw [Option.elim_some, statusMismatched, entryCount_collectOrgAlerts hlength, Bool.and_comm]
  · exact (List.countP_le_length.trans hevidence).trans hbound.le

/--
The mismatches are counted right exactly when as many repositories miss alerts that are filed
under their identifier as find those of another one under their inventory key.
-/
theorem statusMismatchCount_iff {S : Source} {env alertsEnv : RequestEnvironment}
    {payload : InventoryPayload} (hpayload : S.buildInventoryFromApi env = .ok payload)
    {evidence : List RepositoryEvidence}
    (hevidence : (evidence.map RepositoryEvidence.repository).Perm payload.repositories)
    (clock : AlertClock) (runTimestamp : String) :
    let run := requestInner S.client alertsEnv (alertsPath S.client.orgName) 1
    let attributed := attributed payload.repositories (openAlerts run)
    (buildSecretScanningObservabilitySummary evidence
        (some (collectOrgAlerts clock run payload.repositories runTimestamp))).statusMismatchCount =
      evidence.countP (mismatching attributed) ↔
      evidence.countP (missed attributed) = evidence.countP (borrowed attributed) := by
  intro run attributed
  have hlength : evidence.length ≤ maxPaginatedItems := by
    have hmap := hevidence.length_eq
    rw [List.length_map] at hmap
    exact hmap.trans_le (length_le_of_buildInventoryFromApi hpayload)
  rw [statusMismatchCount_collected (length_openAlerts_le ..) hlength, eq_comm,
    Tally.countP_eq_countP_iff]
  have hmissed : (fun r => mismatching attributed r && !(!r.repository.archived &&
      (r.checks.secretScanning.statusMismatch || (r.checks.secretScanning.status = .disabled &&
        attributed r.repository.inventoryKey)))) = missed attributed := by
    funext r
    unfold mismatching missed unrecorded
    dsimp only
    cases r.repository.archived <;> cases r.checks.secretScanning.statusMismatch <;>
      cases decide (r.checks.secretScanning.status = .disabled) <;>
      cases attributed r.repository.id <;> rfl
  have hborrowed : (fun r => (!r.repository.archived &&
      (r.checks.secretScanning.statusMismatch || (r.checks.secretScanning.status = .disabled &&
        attributed r.repository.inventoryKey))) && !mismatching attributed r) =
      borrowed attributed := by
    funext r
    unfold mismatching borrowed unrecorded
    dsimp only
    cases r.repository.archived <;> cases r.checks.secretScanning.statusMismatch <;>
      cases decide (r.checks.secretScanning.status = .disabled) <;>
      cases attributed r.repository.inventoryKey <;> rfl
  rw [← hmissed, ← hborrowed]

/-! ## A repository without a numeric identifier -/

def quietItem (id : Option UInt64) : GhRepository where
  id := id
  nodeId := some "R_7"
  name := "quiet"
  visibility := none
  «private» := none
  language := none
  defaultBranch := none
  archived := none
  hasIssues := none
  updatedAt := none
  pushedAt := none
  createdAt := none
  description := none
  fork := none
  size := none
  htmlUrl := none
  topics := none
  licenseSpdxId := none

/-- A source that lists the item, and one open alert with its node identifier. -/
def quietSource (id : Option UInt64) : Source where
  client := ⟨"https://api", "https://api", "org", fun _ => none, fun body =>
    .ok (.array [if body = "[1]" then .null else
      .object [("repository", .object [("node_id", .string "R_7")])]]), fun _ => ""⟩
  fromValue := fun _ => .ok (quietItem id)
  notAList := "invalid type"
  fetchedAt := ""

/-- One page with this body. -/
def quietRequest (body : List UInt8) : RequestEnvironment :=
  ⟨false, .ok (), true, fun _ => ⟨fun _ _ => ⟨false, true, .ok ⟨200, [], none, [.ok body]⟩⟩,
    false, .ok ()⟩⟩

/-- The repository is disabled and has not recorded a mismatch. -/
def quietEvidence (id : Option UInt64) : RepositoryEvidence where
  repository := (quietItem id).toRepository
  checks := {
    securityPolicy := .absent ""
    secretScanning := .disabled none (.noMismatch .orgSummary none) ""
    dependabotSecurityUpdates := ⟨.disabled, none, ""⟩
    branchProtection := .protected "main" ""
    codeowners := .absent "" }
  lastCommit := none
  repoDetailsNotModified := false

theorem buildInventoryFromApi_quiet (id : Option UInt64) :
    (quietSource id).buildInventoryFromApi (quietRequest [91, 49, 93]) =
      .ok ⟨[(quietItem id).toRepository], true, some ""⟩ := rfl

/-- The alert is filed under the synthetic identifier, and not found under the node identifier. -/
theorem not_statusMismatchCount_agrees :
    ¬ ∀ (S : Source) (env alertsEnv : RequestEnvironment) (payload : InventoryPayload),
      S.buildInventoryFromApi env = .ok payload → ∀ evidence : List RepositoryEvidence,
      (evidence.map RepositoryEvidence.repository).Perm payload.repositories →
      ∀ (clock : AlertClock) (runTimestamp : String),
      let run := requestInner S.client alertsEnv (alertsPath S.client.orgName) 1
      (buildSecretScanningObservabilitySummary evidence
        (some (collectOrgAlerts clock run payload.repositories runTimestamp))).statusMismatchCount =
      evidence.countP (mismatching (attributed payload.repositories (openAlerts run))) := by
  intro h
  have hcount := h (quietSource none) (quietRequest [91, 49, 93]) (quietRequest [91, 50, 93]) _
    (buildInventoryFromApi_quiet none) [quietEvidence none] (.refl _) sampleClock ""
  exact absurd hcount (by decide +kernel)

/-- With a numeric identifier the alert is found, and the one mismatch is counted. -/
theorem statusMismatchCount_iff_numeric :
    let run := requestInner (quietSource (some 7)).client (quietRequest [91, 50, 93])
      (alertsPath "org") 1
    let repositories := [(quietItem (some 7)).toRepository]
    (buildSecretScanningObservabilitySummary [quietEvidence (some 7)]
        (some (collectOrgAlerts sampleClock run repositories ""))).statusMismatchCount =
      [quietEvidence (some 7)].countP (mismatching (attributed repositories (openAlerts run))) ∧
    [quietEvidence (some 7)].countP (mismatching (attributed repositories (openAlerts run))) =
      1 := by
  have hevidence := List.Perm.refl ([quietEvidence (some 7)].map RepositoryEvidence.repository)
  refine ⟨(statusMismatchCount_iff (buildInventoryFromApi_quiet (some 7)) hevidence sampleClock
    "").mpr ?_, ?_⟩
  · decide +kernel
  · decide +kernel

end GhReport.Aggregate
