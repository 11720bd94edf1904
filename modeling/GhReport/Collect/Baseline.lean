import GhReport.App.Evidence
import GhReport.App.Rerecording
import GhReport.Collector.SecretAlerts
import GhReport.Domain.Scores
import GhReport.Inventory.Deduplication
import GhReport.Publication.Continuity

/-! # Reuse of the baseline

A sweep leaves the repositories of its checkpoint alone, reuses evidence of an
earlier run where nothing says that it is outdated, and reads the rest. A report
lists what the projection holds, and the rest of the inventory as pending.
-/

namespace GhReport.Domain

/-- When the evidence was collected. -/
def RepositoryChecks.observedAt (checks : RepositoryChecks) : String :=
  checks.branchProtection.timestamp

end GhReport.Domain

namespace GhReport.Collect

open Domain Projection App Inventory Collector Publication
open Event (Calendar)

/-! ## Ages -/

def baselineMaxAgeSecs : ℕ := 86400

def dependabotInactivityThresholdDays : ℕ := 90

inductive BaselineAge where
  | fresh
  | stale
deriving DecidableEq

/-- The whole seconds between two instants, none when they are in the wrong order. -/
def ageSecs (observed run : ℤ) : ℕ := ((run - observed).tdiv (10 ^ 9)).toNat

/-- An age that cannot be told is stale. -/
def assessBaselineAge (C : Calendar) (observedAt runTimestamp : String) : BaselineAge :=
  match C.parseIso8601 observedAt, C.parseIso8601 runTimestamp with
  | some observed, some run =>
    if ageSecs observed run ≤ baselineMaxAgeSecs then .fresh else .stale
  | _, _ => .stale

/-- An inactivity that cannot be told is none. -/
def isDependabotInactive (C : Calendar) (pushedAt : Option String) (runTimestamp : String) : Bool :=
  match pushedAt.bind C.parseIso8601, C.parseIso8601 runTimestamp with
  | some pushed, some generated =>
    dependabotInactivityThresholdDays < SecretScanning.ageDays pushed generated
  | _, _ => false

/-! ## Reuse -/

abbrev UpdatedAt := NonEmptyText

/-- A text that is empty is absent. -/
def UpdatedAt.new (raw : String) : Option UpdatedAt := if h : raw = "" then none else some ⟨raw, h⟩

def shouldReuse (baselineUpdatedAt currentUpdatedAt : Option UpdatedAt)
    (baselineAge : BaselineAge) : Bool :=
  match baselineUpdatedAt, currentUpdatedAt, baselineAge with
  | some baseline, some current, .fresh => baseline == current
  | _, _, _ => false

def orgAlertsContradictBaseline (evidence : RepositoryEvidence) (repo : Repository)
    (orgSummary : OrgAlertSummary) : Bool :=
  if orgSummary.collectionStatus ≠ .success then false
  else match evidence.checks.secretScanning.hasOpenAlerts with
    | none => false
    | some baselineOpen =>
      let freshOpen := (orgSummary.perRepo[SecretScanning.scopeKey repo]?).any
        fun summary => 0 < summary.openAlertCount
      baselineOpen != freshOpen

section Reuse

/- Each key is looked up once, in the projection of that moment. -/
variable (C : Calendar) (projectionGet : String → Option RepositoryEvidence)
  (runTimestamp : String) (orgSummary : OrgAlertSummary)

/-- What the baseline has for a repository, if it may be reused. -/
def reusable (repo : Repository) : Option RepositoryEvidence :=
  match projectionGet repo.inventoryKey with
  | none => none
  | some evidence =>
    let baselineUpdatedAt := (evidence.repository.updatedAt.map Subtype.val).getD ""
    let baselineAge := assessBaselineAge C evidence.checks.observedAt runTimestamp
    if !shouldReuse (UpdatedAt.new baselineUpdatedAt)
        ((repo.updatedAt.map Subtype.val).bind UpdatedAt.new) baselineAge then none
    else if evidence.checks.dependabotSecurityUpdates.status = .enabled
        ∧ isDependabotInactive C repo.pushedAt runTimestamp then none
    else if orgAlertsContradictBaseline evidence repo orgSummary then none
    else if repo.isPublic ∧ evidence.checks.securityPolicy.status = .unknown then none
    else some evidence

variable (completed : KeyMap RepositoryEvidence) (forceRefresh : Bool)

def reuseFromBaseline (repositories : List Repository) : KeyMap RepositoryEvidence :=
  if forceRefresh then ∅
  else
    let pendingBeforeBaseline := repositories.filter fun r => !completed.contains r.inventoryKey
    KeyMap.insertSome Repository.inventoryKey
      (reusable C projectionGet runTimestamp orgSummary) ∅ pendingBeforeBaseline

/-- The repositories whose checks are enqueued. -/
def pending (baselineCache : KeyMap RepositoryEvidence) (inventory : AdmittedInventory) :
    List Repository :=
  inventory.activeRepos.filter fun r =>
    !completed.contains r.inventoryKey && !baselineCache.contains r.inventoryKey

end Reuse

/-! ## What is reused -/

section Reusable

variable {C : Calendar} {projectionGet : String → Option RepositoryEvidence}
  {runTimestamp : String} {orgSummary : OrgAlertSummary}

/-- The evidence was collected no longer before the run than the baseline may be old. -/
def Recent (C : Calendar) (runTimestamp : String) (evidence : RepositoryEvidence) : Prop :=
  ∃ observed run, C.parseIso8601 evidence.checks.observedAt = some observed ∧
    C.parseIso8601 runTimestamp = some run ∧ ageSecs observed run ≤ baselineMaxAgeSecs

/-- The repository has the time of its last update, and the evidence has the same. -/
def Unchanged (repo : Repository) (evidence : RepositoryEvidence) : Prop :=
  repo.updatedAt ≠ none ∧ evidence.repository.updatedAt = repo.updatedAt

/-- A summary that succeeded says of open alerts what the evidence says. -/
def Agrees (orgSummary : OrgAlertSummary) (repo : Repository) (evidence : RepositoryEvidence) :
    Prop :=
  orgSummary.collectionStatus = .success → ∀ open',
    evidence.checks.secretScanning.hasOpenAlerts = some open' →
    (open' = true ↔ ∃ summary, orgSummary.perRepo[SecretScanning.scopeKey repo]? = some summary ∧
      0 < summary.openAlertCount)

@[simp] theorem updatedAt_val (t : NonEmptyText) : UpdatedAt.new t.val = some t := by
  rw [UpdatedAt.new, dif_neg t.property]

theorem assessBaselineAge_eq_fresh_iff (evidence : RepositoryEvidence) :
    assessBaselineAge C evidence.checks.observedAt runTimestamp = .fresh ↔
      Recent C runTimestamp evidence := by
  unfold assessBaselineAge Recent
  split
  · next observed run hobserved hrun =>
    simp only [hobserved, hrun, Option.some.injEq, ite_eq_left_iff, reduceCtorEq, imp_false,
      not_not]
    constructor
    · exact fun h => ⟨observed, run, rfl, rfl, h⟩
    · rintro ⟨_, _, rfl, rfl, h⟩
      exact h
  · next hnone =>
    constructor
    · rintro ⟨⟩
    · rintro ⟨observed, run, hobserved, hrun, -⟩
      exact (hnone observed run hobserved hrun).elim

theorem shouldReuse_eq_true_iff (repo : Repository) (evidence : RepositoryEvidence)
    (age : BaselineAge) :
    shouldReuse (UpdatedAt.new ((evidence.repository.updatedAt.map Subtype.val).getD ""))
        ((repo.updatedAt.map Subtype.val).bind UpdatedAt.new) age = true ↔
      Unchanged repo evidence ∧ age = .fresh := by
  unfold Unchanged
  cases hrepo : repo.updatedAt with
  | none => simp [shouldReuse]
  | some current =>
    cases evidence.repository.updatedAt with
    | none => simp [shouldReuse, UpdatedAt.new]
    | some baseline => cases age <;> simp [shouldReuse, Subtype.ext_iff]

theorem orgAlertsContradictBaseline_eq_false_iff (repo : Repository)
    (evidence : RepositoryEvidence) :
    orgAlertsContradictBaseline evidence repo orgSummary = false ↔
      Agrees orgSummary repo evidence := by
  unfold orgAlertsContradictBaseline Agrees
  split
  · next hstatus => exact ⟨fun _ h => absurd h hstatus, fun _ => rfl⟩
  · next hstatus =>
    rw [not_not] at hstatus
    split
    · next hnone => simp [hnone]
    · next baselineOpen hopen =>
      simp only [hopen, hstatus, forall_const, Option.some.injEq, forall_eq', bne_eq_false_iff_eq]
      rw [Bool.eq_iff_iff, Option.any_eq_true]
      simp

/-- Every condition of the reuse. -/
theorem reusable_eq_some_iff (repo : Repository) (evidence : RepositoryEvidence) :
    reusable C projectionGet runTimestamp orgSummary repo = some evidence ↔
      projectionGet repo.inventoryKey = some evidence ∧ Unchanged repo evidence ∧
      Recent C runTimestamp evidence ∧ Agrees orgSummary repo evidence ∧
      ¬ (evidence.checks.dependabotSecurityUpdates.status = .enabled ∧
        isDependabotInactive C repo.pushedAt runTimestamp = true) ∧
      ¬ (repo.isPublic = true ∧ evidence.checks.securityPolicy.status = .unknown) := by
  unfold reusable
  cases projectionGet repo.inventoryKey with
  | none => simp
  | some found =>
    have hreuse := shouldReuse_eq_true_iff repo found
      (assessBaselineAge C found.checks.observedAt runTimestamp)
    rw [assessBaselineAge_eq_fresh_iff] at hreuse
    have hagrees := @orgAlertsContradictBaseline_eq_false_iff orgSummary repo found
    simp only [Option.ite_none_left_eq_some, Bool.not_eq_true', Bool.not_eq_false, hreuse,
      Bool.not_eq_true, hagrees, Option.some.injEq]
    constructor
    · rintro ⟨⟨hunchanged, hrecent⟩, hactive, hagrees, hpolicy, rfl⟩
      exact ⟨rfl, hunchanged, hrecent, hagrees, hactive, hpolicy⟩
    · rintro ⟨rfl, hunchanged, hrecent, hagrees, hactive, hpolicy⟩
      exact ⟨⟨hunchanged, hrecent⟩, hactive, hagrees, hpolicy, rfl⟩

end Reusable

/-! ## The plan of a sweep -/

/-- What a sweep does with a repository. -/
inductive Plan where
  | resumed
  | reused (evidence : RepositoryEvidence)
  | pending
deriving DecidableEq

section Partition

variable (C : Calendar) (projectionGet : String → Option RepositoryEvidence)
  (runTimestamp : String) (orgSummary : OrgAlertSummary) (completed : KeyMap RepositoryEvidence)
  (forceRefresh : Bool)

/-- The checkpoint comes before the baseline, and a forced refresh has none. -/
def planOf (repo : Repository) : Plan :=
  if completed.contains repo.inventoryKey then .resumed
  else if forceRefresh then .pending
  else match reusable C projectionGet runTimestamp orgSummary repo with
    | some evidence => .reused evidence
    | none => .pending

theorem keys_nodup {payload : InventoryPayload} {maxRepos : MaxRepos}
    {inventory : AdmittedInventory} (h : admitted payload maxRepos = some inventory) :
    (inventory.activeRepos.map Repository.inventoryKey).Nodup := by
  unfold admitted ValidatedInventory.fromPayload at h
  cases hunique : validateAndDeduplicateRepositories payload.repositories with
  | error e =>
    rw [hunique] at h
    cases h
  | ok unique =>
    rw [hunique] at h
    cases h
    have hnodup := (validateAndDeduplicate_ok hunique).1
    have hsorted : ((unique.insertionSort fun a b => a.id ≤ b.id).map
        Repository.inventoryKey).Nodup :=
      ((List.perm_insertionSort ..).map _).nodup_iff.mpr hnodup
    simp only [boundActiveRepositories]
    split
    · exact hsorted.sublist ((List.take_sublist ..).map _)
    · exact hsorted

variable {inventory : AdmittedInventory}

/-- The reused evidence of a repository is what the plan says. -/
theorem getElem?_reuseFromBaseline
    (hkeys : (inventory.activeRepos.map Repository.inventoryKey).Nodup) {repo : Repository}
    (hrepo : repo ∈ inventory.activeRepos)
    (evidence : RepositoryEvidence) :
    (reuseFromBaseline C projectionGet runTimestamp orgSummary completed forceRefresh
        inventory.activeRepos)[repo.inventoryKey]? = some evidence ↔
      planOf C projectionGet runTimestamp orgSummary completed forceRefresh repo =
        .reused evidence := by
  unfold reuseFromBaseline planOf
  cases forceRefresh with
  | true =>
    rw [if_pos rfl, if_pos rfl]
    split <;> simp
  | false =>
    rw [if_neg Bool.false_ne_true, if_neg Bool.false_ne_true]
    by_cases hcompleted : completed.contains repo.inventoryKey = true
    · rw [if_pos hcompleted, KeyMap.getElem?_insertSome_of_notMem]
      · simp
      · intro hmem
        obtain ⟨r, hr, hkey⟩ := List.mem_map.mp hmem
        have hr := (List.mem_filter.mp hr).2
        rw [hkey, hcompleted] at hr
        cases hr
    · have hmem : repo ∈ inventory.activeRepos.filter
          fun r => !completed.contains r.inventoryKey :=
        List.mem_filter.mpr ⟨hrepo, by rwa [Bool.not_eq_true', ← Bool.not_eq_true]⟩
      rw [if_neg hcompleted, KeyMap.getElem?_insertSome _ _ _
        (hkeys.sublist (List.filter_sublist.map _)) hmem]
      split
      · next e he => simp [he]
      · next he => simp [he]

/-- Evidence is reused under the key of some repository only. -/
theorem mem_of_reuseFromBaseline {key : String} {evidence : RepositoryEvidence}
    (h : (reuseFromBaseline C projectionGet runTimestamp orgSummary completed forceRefresh
      inventory.activeRepos)[key]? = some evidence) :
    ∃ repo ∈ inventory.activeRepos, repo.inventoryKey = key := by
  unfold reuseFromBaseline at h
  split at h
  · simp at h
  · by_contra hnone
    rw [KeyMap.getElem?_insertSome_of_notMem] at h
    · simp at h
    · intro hmem
      obtain ⟨repo, hrepo, hkey⟩ := List.mem_map.mp hmem
      exact hnone ⟨repo, (List.mem_filter.mp hrepo).1, hkey⟩

theorem contains_completed_iff (repo : Repository) :
    completed.contains repo.inventoryKey = true ↔
      planOf C projectionGet runTimestamp orgSummary completed forceRefresh repo = .resumed := by
  unfold planOf
  split
  · next h => simp [h]
  · next h =>
    split
    · simp [h]
    · split <;> simp [h]

theorem planOf_eq_reused_iff (repo : Repository) (evidence : RepositoryEvidence) :
    planOf C projectionGet runTimestamp orgSummary completed forceRefresh repo =
        .reused evidence ↔
      completed.contains repo.inventoryKey = false ∧ forceRefresh = false ∧
        reusable C projectionGet runTimestamp orgSummary repo = some evidence := by
  unfold planOf
  split
  · next h => simp [h]
  · next h =>
    rw [Bool.not_eq_true] at h
    split
    · next hforce => simp [hforce]
    · next hforce =>
      rw [Bool.not_eq_true] at hforce
      cases reusable C projectionGet runTimestamp orgSummary repo with
      | none => simp
      | some found => simp [h, hforce]

theorem mem_pending_iff
    (hkeys : (inventory.activeRepos.map Repository.inventoryKey).Nodup) {repo : Repository}
    (hrepo : repo ∈ inventory.activeRepos) :
    repo ∈ pending completed (reuseFromBaseline C projectionGet runTimestamp orgSummary completed
        forceRefresh inventory.activeRepos) inventory ↔
      planOf C projectionGet runTimestamp orgSummary completed forceRefresh repo = .pending := by
  have hreused := getElem?_reuseFromBaseline C projectionGet runTimestamp orgSummary completed
    forceRefresh hkeys hrepo
  have hcompleted := contains_completed_iff C projectionGet runTimestamp orgSummary completed
    forceRefresh repo
  generalize reuseFromBaseline C projectionGet runTimestamp orgSummary completed forceRefresh
    inventory.activeRepos = cache at hreused ⊢
  generalize planOf C projectionGet runTimestamp orgSummary completed forceRefresh repo = plan
    at hreused hcompleted ⊢
  rw [pending, List.mem_filter, Bool.and_eq_true, Bool.not_eq_true', Bool.not_eq_true',
    ← Bool.not_eq_true, ← Bool.not_eq_true, hcompleted, Std.ExtTreeMap.contains_eq_isSome_getElem?,
    Option.isSome_iff_exists]
  simp only [hreused]
  cases plan with
  | resumed => simp
  | reused evidence => simp
  | pending => simp [hrepo]

end Partition

/-! ## The report of a sweep -/

section Report

variable {snapshot : ProjectionRenderSnapshot} {inventory : AdmittedInventory}

def reportKey (evidence : RepositoryEvidence) : String := evidence.repository.inventoryKey

/-- A projection with evidence under its own keys lists each key once. -/
theorem reportKeys_nodup (hkeyed : Keyed snapshot.projection) :
    (snapshot.repositories.map reportKey).Nodup := by
  have hkey : ∀ entry ∈ snapshot.projection.repositories.toList,
      (reportKey ∘ Prod.snd) entry = entry.1 := by
    rintro ⟨key, evidence⟩ hentry
    exact hkeyed key evidence (Std.ExtTreeMap.mem_toList_iff_getElem?_eq_some.mp hentry)
  have hvalues : snapshot.projection.repositories.values.map reportKey =
      snapshot.projection.repositories.keys := by
    rw [KeyMap.values_eq_map_toList, List.map_map, List.map_congr_left hkey,
      Std.ExtTreeMap.map_fst_toList_eq_keys]
  have hperm : (snapshot.repositories.map reportKey).Perm
      (snapshot.projection.repositories.values.map reportKey) :=
    (List.perm_insertionSort ..).map reportKey
  rw [hperm.nodup_iff, hvalues]
  exact Std.ExtTreeMap.nodup_keys

theorem map_includeUnreadRepositories (repositories : List RepositoryEvidence)
    (runTimestamp : String) :
    (includeUnreadRepositories repositories inventory runTimestamp).map reportKey =
      repositories.map reportKey ++ (inventory.activeRepos.map Repository.inventoryKey).filter
        fun key => !(repositories.map reportKey).contains key := by
  simp only [includeUnreadRepositories, List.map_append, List.map_map, List.filter_map]
  rfl

theorem nodup_includeUnreadRepositories {repositories : List RepositoryEvidence}
    (hrepositories : (repositories.map reportKey).Nodup)
    (hkeys : (inventory.activeRepos.map Repository.inventoryKey).Nodup) (runTimestamp : String) :
    ((includeUnreadRepositories repositories inventory runTimestamp).map reportKey).Nodup := by
  rw [map_includeUnreadRepositories]
  refine hrepositories.append (hkeys.filter _) ?_
  intro key hkey hunread
  have hnot := (List.mem_filter.mp hunread).2
  simp [hkey] at hnot

theorem covers_includeUnreadRepositories (repositories : List RepositoryEvidence)
    (runTimestamp : String) {repo : Repository} (hrepo : repo ∈ inventory.activeRepos) :
    repo.inventoryKey ∈
      (includeUnreadRepositories repositories inventory runTimestamp).map reportKey := by
  rw [map_includeUnreadRepositories, List.mem_append]
  by_cases hkey : repo.inventoryKey ∈ repositories.map reportKey
  · exact .inl hkey
  · exact .inr (List.mem_filter.mpr ⟨List.mem_map_of_mem hrepo, by simpa using hkey⟩)

end Report

/-! ## Partition -/

section Statement

/-- The repository is in one of the reused and the pending set, and not in both. -/
def Assigned (reused : KeyMap RepositoryEvidence) (pending : List Repository) (repo : Repository) :
    Prop :=
  reused[repo.inventoryKey]? ≠ none ∧ repo ∉ pending ∨
    reused[repo.inventoryKey]? = none ∧ repo ∈ pending

instance (reused : KeyMap RepositoryEvidence) (pending : List Repository) (repo : Repository) :
    Decidable (Assigned reused pending repo) := inferInstanceAs (Decidable (_ ∨ _))

/--
A sweep partitions its inventory: a repository of the checkpoint is neither reused nor pending,
every other one is exactly one of them. Evidence is reused only where it is unchanged, recent, and
agrees with a summary of the organisation that succeeded. A report of a projection lists no key
twice, and every repository of the inventory.
-/
theorem sweep_partition (C : Calendar) (projectionGet : String → Option RepositoryEvidence)
    (runTimestamp : String) (orgSummary : OrgAlertSummary) (completed : KeyMap RepositoryEvidence)
    (forceRefresh : Bool) {payload : InventoryPayload} {maxRepos : MaxRepos}
    {inventory : AdmittedInventory} (h : admitted payload maxRepos = some inventory) :
    let reused := reuseFromBaseline C projectionGet runTimestamp orgSummary completed forceRefresh
      inventory.activeRepos
    let pending := pending completed reused inventory
    (∀ repo ∈ inventory.activeRepos,
      if completed.contains repo.inventoryKey then
        reused[repo.inventoryKey]? = none ∧ repo ∉ pending
      else Assigned reused pending repo) ∧
    (∀ key evidence, reused[key]? = some evidence →
      ∃ repo ∈ inventory.activeRepos, repo.inventoryKey = key ∧ projectionGet key = some evidence ∧
        Unchanged repo evidence ∧ Recent C runTimestamp evidence ∧
        Agrees orgSummary repo evidence) ∧
    ∀ snapshot : ProjectionRenderSnapshot, Keyed snapshot.projection →
      let report := includeUnreadRepositories snapshot.repositories inventory runTimestamp
      (report.map reportKey).Nodup ∧
        ∀ repo ∈ inventory.activeRepos, repo.inventoryKey ∈ report.map reportKey := by
  intro reused pending
  have hkeys := keys_nodup h
  refine ⟨fun repo hrepo => ?_, fun key evidence hreused => ?_, fun snapshot hkeyed => ?_⟩
  · have hreused := getElem?_reuseFromBaseline C projectionGet runTimestamp orgSummary completed
      forceRefresh hkeys hrepo
    have hpending := mem_pending_iff C projectionGet runTimestamp orgSummary completed
      forceRefresh hkeys hrepo
    have hcompleted := contains_completed_iff C projectionGet runTimestamp orgSummary completed
      forceRefresh repo
    change ∀ e, reused[repo.inventoryKey]? = some e ↔ _ at hreused
    change repo ∈ pending ↔ _ at hpending
    rw [Assigned, Option.ne_none_iff_exists', Option.eq_none_iff_forall_ne_some]
    simp only [ne_eq, hreused, hpending, hcompleted]
    cases planOf C projectionGet runTimestamp orgSummary completed forceRefresh repo with
    | resumed => simp
    | reused e => simp
    | pending => simp
  · obtain ⟨repo, hrepo, rfl⟩ := mem_of_reuseFromBaseline C projectionGet runTimestamp orgSummary
      completed forceRefresh hreused
    rw [getElem?_reuseFromBaseline C projectionGet runTimestamp orgSummary completed forceRefresh
      hkeys hrepo, planOf_eq_reused_iff, reusable_eq_some_iff] at hreused
    obtain ⟨-, -, hget, hunchanged, hrecent, hagrees, -, -⟩ := hreused
    exact ⟨repo, hrepo, rfl, hget, hunchanged, hrecent, hagrees⟩
  · exact ⟨nodup_includeUnreadRepositories (reportKeys_nodup hkeyed) hkeys runTimestamp,
      fun repo hrepo => covers_includeUnreadRepositories _ runTimestamp hrepo⟩

/-- A repository with evidence that was collected when the run started. -/
def sampleListed : Repository :=
  { Publication.sampleRepository "key" with updatedAt := some ⟨sampleText, by decide⟩ }

def sampleBaseline : RepositoryEvidence :=
  { sampleEvidence "key" false with
    repository := sampleListed
    checks := { (sampleEvidence "key" false).checks with
      branchProtection := .protected "main" sampleText } }

def samplePayload : InventoryPayload := ⟨[sampleListed], true, none⟩

def sampleAdmitted : AdmittedInventory := ⟨[sampleListed], true, none, false, 1, 0⟩

theorem admitted_sample : admitted samplePayload ⟨1, nofun⟩ = some sampleAdmitted := by
  rfl

def sampleHolding : EvidenceProjection :=
  { EvidenceProjection.default with
    repositories := (∅ : KeyMap RepositoryEvidence).insert "key" sampleBaseline }

theorem keyed_sampleHolding : Keyed sampleHolding := by
  intro key evidence h
  rw [sampleHolding, KeyMap.getElem?_insert] at h
  split at h
  · next hkey =>
    cases h
    exact hkey
  · simp at h

def sampleSummary : OrgAlertSummary := ⟨.success, none, some 200, ∅, ∅, 0, none, none⟩

def sampleReuse (completed : KeyMap RepositoryEvidence) : KeyMap RepositoryEvidence :=
  reuseFromBaseline sampleCalendar (sampleHolding.repositories[·]?) sampleText sampleSummary
    completed false sampleAdmitted.activeRepos

/-- A repository of the checkpoint is neither reused nor pending. -/
theorem resumed_not_assigned :
    let completed := (∅ : KeyMap RepositoryEvidence).insert "key" sampleBaseline
    admitted samplePayload ⟨1, nofun⟩ = some sampleAdmitted ∧
      sampleListed ∈ sampleAdmitted.activeRepos ∧
      (sampleReuse completed)["key"]? = none ∧
      sampleListed ∉ pending completed (sampleReuse completed) sampleAdmitted ∧
      ¬ Assigned (sampleReuse completed) (pending completed (sampleReuse completed) sampleAdmitted)
        sampleListed := by
  refine ⟨admitted_sample, List.mem_singleton_self _, ?_, ?_, ?_⟩
  · decide +kernel
  · decide +kernel
  · decide +kernel

/-- Without a checkpoint the evidence of the sample is reused, and reported once. -/
theorem sweep_partition_reused :
    (sampleReuse ∅)["key"]? = some sampleBaseline ∧ Unchanged sampleListed sampleBaseline ∧
      sampleListed ∉ pending ∅ (sampleReuse ∅) sampleAdmitted ∧
      ((includeUnreadRepositories
        (ProjectionRenderSnapshot.repositories ⟨⟨0, 0, []⟩, sampleHolding⟩) sampleAdmitted
          sampleText).map reportKey).Nodup := by
  obtain ⟨hassigned, hreused, hreport⟩ := sweep_partition sampleCalendar
    (sampleHolding.repositories[·]?) sampleText sampleSummary ∅ false
    admitted_sample
  have hbaseline : (sampleReuse ∅)["key"]? = some sampleBaseline := by
    decide +kernel
  obtain ⟨repo, hrepo, -, -, hunchanged, -, -⟩ := hreused "key" sampleBaseline hbaseline
  rw [show repo = sampleListed from List.mem_singleton.mp hrepo] at hunchanged
  refine ⟨hbaseline, hunchanged, ?_, (hreport _ keyed_sampleHolding).1⟩
  rcases hassigned sampleListed (List.mem_singleton_self _) with ⟨-, hpending⟩ | ⟨hnone, -⟩
  · exact hpending
  · exact absurd (hbaseline.symm.trans hnone) nofun

end Statement

end GhReport.Collect
