import GhReport.Aggregate.OwnerPages
import GhReport.Event.Convert

/-! # Lifecycle of repositories

When a repository is stale, and the two rates that owners get on top of the
shared controls.
-/

namespace GhReport.Aggregate

open Domain
open Event (Calendar)

section Stale

variable (C : Calendar)

def staleThresholdDays : ℤ := 730

/-- Not stale where a timestamp is missing or cannot be parsed. -/
def isRepoStale (updatedAt : Option String) (runTimestamp : String) : Bool :=
  match updatedAt.bind C.parseIso8601, C.parseIso8601 runTimestamp with
  | some updated, some generated =>
    let seconds := (generated - updated).tdiv 1000000000
    let ageDays := max (seconds.tdiv 86400) 0
    staleThresholdDays < ageDays
  | _, _ => false

def RepositoryEvidence.isStale (runTimestamp : String) (repo : RepositoryEvidence) : Bool :=
  isRepoStale C (repo.repository.updatedAt.map Subtype.val) runTimestamp

end Stale

/-! ## Open alerts -/

/-- Secret scanning is enabled, and it is known whether there are open alerts. -/
def alertMeasured (repo : RepositoryEvidence) : Bool :=
  repo.checks.secretScanning.status = .enabled && repo.checks.secretScanning.alertsObservable
    && repo.checks.secretScanning.hasOpenAlerts.isSome

/-- The answer is that there are none. -/
def alertFree (repo : RepositoryEvidence) : Bool :=
  alertMeasured repo && repo.checks.secretScanning.hasOpenAlerts = some false

section Enrich

variable (C : Calendar) (toLowercase : String → String)

def nonStaleMetric (runTimestamp : String) (repos : List RepositoryEvidence) : RateMetric :=
  let total := countAsU32 repos.length
  let staleCount := countAsU32 (repos.filter (RepositoryEvidence.isStale C runTimestamp)).length
  .new (total - staleCount) total

def alertFreeMetric (repos : List RepositoryEvidence) : RateMetric :=
  let total := countAsU32 repos.length
  let observable := repos.filter alertMeasured
  let observableCount := countAsU32 observable.length
  let alertFreeCount := countAsU32 (observable.filter fun r =>
    r.checks.secretScanning.hasOpenAlerts = some false).length
  let unobservableCount := total - observableCount
  RateMetric.new alertFreeCount observableCount |>.withExtra "unobservable" unobservableCount

def enrichOwnerMetricsWithLifecycle (owners : List OwnerMetrics)
    (repositories : List RepositoryEvidence) (runTimestamp : String) : List OwnerMetrics :=
  let ownerRepoMap := buildOwnerRepoMap toLowercase repositories
  owners.map fun owner =>
    match ownerRepoMap[owner.owner]? with
    | none => owner
    | some (_, repos) =>
      { owner with
        perControlCoverage := owner.perControlCoverage
          |>.insert "non_stale" (nonStaleMetric C runTimestamp repos)
          |>.insert "alert_free" (alertFreeMetric repos) }

/-- Every owner stays, and gets the rate of its repositories in the map. -/
theorem enrichOwnerMetricsWithLifecycle_eq (owners : List OwnerMetrics)
    (repositories : List RepositoryEvidence) (runTimestamp : String) :
    ∃ enrich : OwnerMetrics → OwnerMetrics,
      enrichOwnerMetricsWithLifecycle C toLowercase owners repositories runTimestamp =
        owners.map enrich ∧
      ∀ o, (enrich o).owner = o.owner ∧
        ∀ entry, (buildOwnerRepoMap toLowercase repositories)[o.owner]? = some entry →
          (enrich o).perControlCoverage["alert_free"]? = some (alertFreeMetric entry.2) := by
  refine ⟨_, rfl, fun o => ?_⟩
  cases hentry : (buildOwnerRepoMap toLowercase repositories)[o.owner]? with
  | none => exact ⟨rfl, nofun⟩
  | some entry =>
    refine ⟨rfl, ?_⟩
    rintro _ ⟨⟩
    exact KeyMap.getElem?_insert_same _ _ _

end Enrich

/-! ## Counts of open alerts -/

variable {repos : List RepositoryEvidence}

theorem countAsU32_of_le {n : ℕ} (h : n ≤ u32Max) : countAsU32 n = n := min_eq_left h

theorem countAsU32_filter (h : repos.length ≤ u32Max) (p : RepositoryEvidence → Bool) :
    countAsU32 (repos.filter p).length = repos.countP p := by
  rw [← List.countP_eq_length_filter, countAsU32_of_le (List.countP_le_length.trans h)]

/-- The metric of an owner counts its repositories by what is known of their alerts. -/
theorem alertFreeMetric_counts (h : repos.length ≤ u32Max) :
    (alertFreeMetric repos).numerator = repos.countP alertFree ∧
      (alertFreeMetric repos).denominator = repos.countP alertMeasured ∧
      (alertFreeMetric repos).extra["unobservable"]? =
        some (repos.countP fun repo => !alertMeasured repo) := by
  have hsplit := List.length_eq_countP_add_countP alertMeasured (l := repos)
  have hfree : (repos.filter alertMeasured).filter (fun r =>
      r.checks.secretScanning.hasOpenAlerts = some false) = repos.filter alertFree := by
    rw [List.filter_filter]
    apply List.filter_congr
    intro repo _
    exact Bool.and_comm _ _
  refine ⟨?_, ?_, ?_⟩
  · rw [alertFreeMetric, RateMetric.numerator_withExtra, hfree]
    exact countAsU32_filter h alertFree
  · rw [alertFreeMetric, RateMetric.denominator_withExtra]
    exact countAsU32_filter h alertMeasured
  · have hrest : repos.length - repos.countP alertMeasured =
        repos.countP fun repo => !alertMeasured repo := by
      simp only [Bool.not_eq_true, Bool.decide_eq_false] at hsplit
      omega
    simp only [alertFreeMetric, RateMetric.withExtra, RateMetric.new, countAsU32_filter h,
      countAsU32_of_le h, hrest]
    exact KeyMap.getElem?_insert_same _ _ _

/-- One repository in the counters of the organisation. -/
theorem countSecretAlert_eq (counts : SecretAlertCounts) (repo : RepositoryEvidence) :
    countSecretAlert counts repo =
      if alertFree repo then
        { counts with reposWithoutOpenAlerts := saturatingAdd counts.reposWithoutOpenAlerts 1 }
      else if alertMeasured repo then
        { counts with reposWithOpenAlerts := saturatingAdd counts.reposWithOpenAlerts 1 }
      else { counts with unobservable := saturatingAdd counts.unobservable 1 } := by
  unfold countSecretAlert alertFree alertMeasured SecretScanningResult.alertsObservable
  dsimp only
  cases hstatus : decide (repo.checks.secretScanning.status = .enabled) with
  | false => simp [of_decide_eq_false hstatus]
  | true =>
    cases repo.checks.secretScanning.hasOpenAlerts with
    | none => simp
    | some hasOpenAlerts => cases hasOpenAlerts <;> simp [of_decide_eq_true hstatus]

theorem alertMeasured_of_free {repo : RepositoryEvidence} (h : alertFree repo = true) :
    alertMeasured repo = true := (Bool.and_eq_true_iff.mp h).1

/-- The counters of the organisation take each repository alike. -/
theorem countSecretAlertObservability_counts (h : repos.length ≤ u32Max) :
    (countSecretAlertObservability repos).reposWithoutOpenAlerts = repos.countP alertFree ∧
      (countSecretAlertObservability repos).reposWithOpenAlerts =
        repos.countP (fun repo => alertMeasured repo && !alertFree repo) ∧
      (countSecretAlertObservability repos).unobservable =
        repos.countP (fun repo => !alertMeasured repo) := by
  have hcount : ∀ (get : SecretAlertCounts → ℕ) (p : RepositoryEvidence → Bool),
      get {} = 0 → (∀ counts repo, get (countSecretAlert counts repo) =
        if p repo then saturatingAdd (get counts) 1 else get counts) →
      get (countSecretAlertObservability repos) = repos.countP p := by
    intro get p hzero hstep
    rw [countSecretAlertObservability, Tally.foldl_countP_of_zero get p hstep hzero,
      min_eq_left (List.countP_le_length.trans h)]
  refine ⟨hcount _ _ rfl ?_, hcount _ _ rfl ?_, hcount _ _ rfl ?_⟩ <;> intro counts repo <;>
    rw [countSecretAlert_eq]
  · split
    · rfl
    · split <;> rfl
  · cases hfree : alertFree repo with
    | true => simp
    | false => cases hmeasured : alertMeasured repo <;> simp
  · cases hfree : alertFree repo with
    | true => simp [alertMeasured_of_free hfree]
    | false => cases hmeasured : alertMeasured repo <;> simp

theorem countAlertObservableEnabled_eq (h : repos.length ≤ u32Max) :
    countAlertObservableEnabled repos = repos.countP alertMeasured := by
  rw [countAlertObservableEnabled, ← countAsU32_filter h]
  congr 2
  apply List.filter_congr
  intro repo _
  simp only [alertMeasured, Bool.decide_and, Bool.decide_eq_true, Bool.and_assoc]

end GhReport.Aggregate
