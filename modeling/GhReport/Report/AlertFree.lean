import GhReport.Aggregate.Lifecycle
import GhReport.Collector.OwnerAttribution
import Mathlib.Data.Rat.Defs

/-! # The alert-free card and its page

The card reads the counters of the organisation, the page goes through the
repositories itself, and the owners count their own. All of them take a
repository as measured in the same cases.
-/

namespace GhReport.Report

open Domain Aggregate
open Event (Calendar Visibility)
open Collector.Codeowners (namesOwner)

/-- What a render reads of the evidence of a run. -/
structure Evidence where
  organization : String
  runTimestamp : String
  archivedRepos : ℕ
  repositories : List RepositoryEvidence
  metrics : AggregatedMetrics

/-- How rates are rounded and shown with one decimal, and how path segments are encoded. -/
structure Rendering where
  inTenths : ℚ → ℚ
  showRate : ℚ → String
  encode : String → String

section Rates

variable (D : Rendering)

/-- The rate in percent, unless the population is empty. -/
def rateOf (numerator denominator : ℕ) : Option ℚ :=
  if 0 < denominator then some ((numerator : ℚ) / denominator * 100) else none

def formatted (numerator denominator : ℕ) : String :=
  let counts := "(" ++ toString numerator ++ "/" ++ toString denominator ++ ")"
  match rateOf numerator denominator with
  | some rate => D.showRate rate ++ "% " ++ counts
  | none => "N/A " ++ counts

/-! ## The card -/

/-- A card without its tier and the width of its bar. -/
structure CoverageCard where
  numerator : ℕ
  denominator : ℕ
  rate : Option ℚ
  formatted : String

def computeAlertFreeCoverage (evidence : Evidence) : CoverageCard :=
  let m := evidence.metrics
  let numerator := m.secretAlertCounts.reposWithoutOpenAlerts
  let denominator := max (saturatingAdd numerator m.secretAlertCounts.reposWithOpenAlerts)
    m.openSecretAlertPrevalence.denominator
  ⟨numerator, denominator, rateOf numerator denominator, formatted D numerator denominator⟩

/-! ## The page -/

/-- The columns that every listing of a repository has. -/
structure RepoDisplay where
  repoName : String
  repoUrl : String
  visibility : Visibility
  archived : Bool

structure DenominatorRepoRow where
  display : RepoDisplay
  outcome : ControlOutcome

structure UnmeasuredRepoRow where
  display : RepoDisplay
  reasonLabel : String

def buildRepoDisplay (organization : String) (repo : RepositoryEvidence) : RepoDisplay where
  repoName := repo.repository.name
  repoUrl := "https://github.com" ++ "/" ++ D.encode organization ++ "/" ++
    D.encode repo.repository.name
  visibility := repo.repository.visibility
  archived := repo.repository.archived

/-- Why a repository outside the gate is not measured. -/
def alertFreeReason (ss : SecretScanningResult) : String :=
  if ss.statusMismatch then "Secret scanning disabled (status mismatch)"
  else if ss.status = .disabled then "Secret scanning disabled"
  else if ss.status = .permissionDenied then "Permission denied"
  else if ss.status = .unknown then "Unknown"
  else if !ss.alertsObservable then
    match ss.failureReason with
    | some .permissionDenied | some .permissionSuspected => "Permission denied"
    | _ => "Alerts unobservable"
  else "Not applicable"

structure AlertFreeRows where
  eligible : List DenominatorRepoRow := []
  unmeasured : List UnmeasuredRepoRow := []

def AlertFreeRows.push (organization : String) (rows : AlertFreeRows) (repo : RepositoryEvidence) :
    AlertFreeRows :=
  if repo.repository.archived then rows
  else
    let display := buildRepoDisplay D organization repo
    let ss := repo.checks.secretScanning
    if ss.status = .enabled ∧ ss.alertsObservable then
      match ss.hasOpenAlerts with
      | some true => { rows with eligible := rows.eligible ++ [⟨display, .unmet⟩] }
      | some false => { rows with eligible := rows.eligible ++ [⟨display, .met⟩] }
      | none => { rows with unmeasured := rows.unmeasured ++ [⟨display, "Unknown"⟩] }
    else { rows with unmeasured := rows.unmeasured ++ [⟨display, alertFreeReason ss⟩] }

structure ControlDenominatorViewModel where
  organization : String
  controlName : String
  populationDescription : String
  pageFileName : String
  numerator : ℕ
  denominator : ℕ
  coverageFormatted : String
  eligible : List DenominatorRepoRow
  unmeasured : List UnmeasuredRepoRow

inductive ReportError where
  | templateRenderFailed (reason : String)

def u32TryFrom (what : String) (count : ℕ) : Except ReportError ℕ :=
  if count ≤ u32Max then .ok count
  else .error (.templateRenderFailed ("alert-free " ++ what ++ " count " ++ toString count ++
    " exceeds u32::MAX: out of range integral type conversion attempted"))

def alertFreeRows (evidence : Evidence) : AlertFreeRows :=
  let rows := evidence.repositories.foldl (AlertFreeRows.push D evidence.organization) {}
  { eligible := rows.eligible.insertionSort fun a b => a.display.repoName ≤ b.display.repoName
    unmeasured := rows.unmeasured.insertionSort fun a b =>
      a.display.repoName ≤ b.display.repoName }

def metCount (rows : List DenominatorRepoRow) : ℕ := (rows.filter fun r => r.outcome = .met).length

def buildAlertFreeViewModel (evidence : Evidence) :
    Except ReportError ControlDenominatorViewModel := do
  let rows := alertFreeRows D evidence
  let numerator ← u32TryFrom "met" (metCount rows.eligible)
  let denominator ← u32TryFrom "total" rows.eligible.length
  .ok {
    organization := evidence.organization
    controlName := "Alert-Free Status"
    populationDescription :=
      "repositories where secret scanning is enabled and alerts are observable"
    pageFileName := "alert_free.html"
    numerator := numerator
    denominator := denominator
    coverageFormatted := formatted D numerator denominator
    eligible := rows.eligible
    unmeasured := rows.unmeasured }

end Rates

/-! ## What the page lists -/

variable {D : Rendering}

/-- The outcome of a measured repository. -/
def alertFreeOutcome (repo : RepositoryEvidence) : ControlOutcome :=
  if alertFree repo then .met else .unmet

/-- The label of a repository that is not measured. -/
def unmeasuredLabel (repo : RepositoryEvidence) : String :=
  if repo.checks.secretScanning.status = .enabled ∧ repo.checks.secretScanning.alertsObservable
    then "Unknown" else alertFreeReason repo.checks.secretScanning

theorem push_eq (organization : String) (rows : AlertFreeRows) (repo : RepositoryEvidence) :
    rows.push D organization repo =
      if repo.repository.archived then rows
      else if alertMeasured repo then
        { rows with eligible :=
            rows.eligible ++ [⟨buildRepoDisplay D organization repo, alertFreeOutcome repo⟩] }
      else
        { rows with unmeasured :=
            rows.unmeasured ++
              [⟨buildRepoDisplay D organization repo, unmeasuredLabel repo⟩] } := by
  unfold AlertFreeRows.push unmeasuredLabel alertFreeOutcome alertFree alertMeasured
    SecretScanningResult.alertsObservable
  dsimp only
  cases repo.repository.archived with
  | true => rfl
  | false =>
    cases hstatus : decide (repo.checks.secretScanning.status = .enabled) with
    | false => simp [of_decide_eq_false hstatus]
    | true =>
      cases repo.checks.secretScanning.hasOpenAlerts with
      | none => simp
      | some hasOpenAlerts => cases hasOpenAlerts <;> simp [of_decide_eq_true hstatus]

theorem foldl_push (organization : String) (repos : List RepositoryEvidence)
    (rows : AlertFreeRows) :
    repos.foldl (AlertFreeRows.push D organization) rows =
      { eligible := rows.eligible ++ ((activeRepos repos).filter alertMeasured).map fun repo =>
          ⟨buildRepoDisplay D organization repo, alertFreeOutcome repo⟩
        unmeasured := rows.unmeasured ++
          ((activeRepos repos).filter fun repo => !alertMeasured repo).map fun repo =>
            ⟨buildRepoDisplay D organization repo, unmeasuredLabel repo⟩ } := by
  induction repos generalizing rows with
  | nil => simp [activeRepos]
  | cons repo repos ih =>
    rw [List.foldl_cons, ih, push_eq]
    simp only [activeRepos, List.filter_cons]
    cases harchived : repo.repository.archived with
    | true => simp
    | false => cases hmeasured : alertMeasured repo <;> simp [hmeasured]

section Page

variable {evidence : Evidence}

theorem eligible_perm : (alertFreeRows D evidence).eligible.Perm
    (((activeRepos evidence.repositories).filter alertMeasured).map fun repo =>
      ⟨buildRepoDisplay D evidence.organization repo, alertFreeOutcome repo⟩) := by
  refine (List.perm_insertionSort _ _).trans (.of_eq ?_)
  rw [foldl_push]
  rfl

theorem unmeasured_perm : (alertFreeRows D evidence).unmeasured.Perm
    (((activeRepos evidence.repositories).filter fun repo => !alertMeasured repo).map fun repo =>
      ⟨buildRepoDisplay D evidence.organization repo, unmeasuredLabel repo⟩) := by
  refine (List.perm_insertionSort _ _).trans (.of_eq ?_)
  rw [foldl_push]
  rfl

/-- The rows of the page together are the repositories that are not archived. -/
theorem rows_perm :
    ((alertFreeRows D evidence).eligible.map DenominatorRepoRow.display ++
      (alertFreeRows D evidence).unmeasured.map UnmeasuredRepoRow.display).Perm
    ((activeRepos evidence.repositories).map (buildRepoDisplay D evidence.organization)) := by
  refine ((eligible_perm.map _).append (unmeasured_perm.map _)).trans ?_
  rw [List.map_map, List.map_map]
  change (List.map (buildRepoDisplay D evidence.organization) _ ++
    List.map (buildRepoDisplay D evidence.organization) _).Perm _
  rw [← List.map_append]
  exact (List.filter_append_perm alertMeasured _).map _

theorem length_eligible : (alertFreeRows D evidence).eligible.length =
    (activeRepos evidence.repositories).countP alertMeasured := by
  rw [eligible_perm.length_eq, List.length_map, List.countP_eq_length_filter]

theorem length_unmeasured : (alertFreeRows D evidence).unmeasured.length =
    (activeRepos evidence.repositories).countP fun repo => !alertMeasured repo := by
  rw [unmeasured_perm.length_eq, List.length_map, List.countP_eq_length_filter]

theorem metCount_eligible : metCount (alertFreeRows D evidence).eligible =
    (activeRepos evidence.repositories).countP alertFree := by
  have hmet : ∀ repo : RepositoryEvidence,
      decide (alertFreeOutcome repo = .met) = alertFree repo := by
    intro repo
    unfold alertFreeOutcome
    cases alertFree repo <;> rfl
  rw [metCount, ← List.countP_eq_length_filter, eligible_perm.countP_eq, List.countP_map,
    List.countP_filter]
  apply List.countP_congr
  intro repo _
  simp only [Function.comp_apply, hmet, Bool.and_eq_true]
  exact ⟨And.left, fun h => ⟨h, alertMeasured_of_free h⟩⟩

/-- The page of a list that the counters can count. -/
theorem buildAlertFreeViewModel_ok (h : evidence.repositories.length ≤ u32Max) :
    buildAlertFreeViewModel D evidence = .ok {
      organization := evidence.organization
      controlName := "Alert-Free Status"
      populationDescription :=
        "repositories where secret scanning is enabled and alerts are observable"
      pageFileName := "alert_free.html"
      numerator := (activeRepos evidence.repositories).countP alertFree
      denominator := (activeRepos evidence.repositories).countP alertMeasured
      coverageFormatted := formatted D ((activeRepos evidence.repositories).countP alertFree)
        ((activeRepos evidence.repositories).countP alertMeasured)
      eligible := (alertFreeRows D evidence).eligible
      unmeasured := (alertFreeRows D evidence).unmeasured } := by
  have hcount : ∀ (what : String) (p : RepositoryEvidence → Bool),
      u32TryFrom what ((activeRepos evidence.repositories).countP p) =
        .ok ((activeRepos evidence.repositories).countP p) := by
    intro what p
    exact if_pos (List.countP_le_length.trans ((List.length_filter_le _ _).trans h))
  simp only [buildAlertFreeViewModel, metCount_eligible, length_eligible, hcount]
  rfl

end Page

/-! ## Agreement -/

/-- The card, the page and the counters of the organisation say the same. -/
structure AlertFreeAgrees (D : Rendering) (evidence : Evidence)
    (page : ControlDenominatorViewModel) : Prop where
  numerator : (computeAlertFreeCoverage D evidence).numerator = page.numerator
  denominator : (computeAlertFreeCoverage D evidence).denominator = page.denominator
  shown : (computeAlertFreeCoverage D evidence).formatted = page.coverageFormatted
  met : page.numerator = metCount page.eligible
  eligible : page.denominator = page.eligible.length
  population : (page.eligible.map DenominatorRepoRow.display ++
      page.unmeasured.map UnmeasuredRepoRow.display).Perm
    ((evidence.repositories.filter fun repo => !repo.repository.archived).map
      (buildRepoDisplay D evidence.organization))
  unobservable : evidence.metrics.secretAlertCounts.unobservable = page.unmeasured.length

section Agreement

variable (D : Rendering) (C : Calendar) (toLowercase : String → String)
  (organization runTimestamp : String) (archivedRepos : ℕ) (repositories : List RepositoryEvidence)

/-- The evidence of a run that found the repositories. -/
abbrev evidenceOf : Evidence :=
  ⟨organization, runTimestamp, archivedRepos, repositories,
    aggregateMetrics toLowercase repositories⟩

/-- What the card shows of a list that the counters can count. -/
theorem computeAlertFreeCoverage_eq (h : repositories.length ≤ u32Max) :
    computeAlertFreeCoverage D
        (evidenceOf toLowercase organization runTimestamp archivedRepos repositories) =
      ⟨(activeRepos repositories).countP alertFree, (activeRepos repositories).countP alertMeasured,
        rateOf ((activeRepos repositories).countP alertFree)
          ((activeRepos repositories).countP alertMeasured),
        formatted D ((activeRepos repositories).countP alertFree)
          ((activeRepos repositories).countP alertMeasured)⟩ := by
  have hactive : (activeRepos repositories).length ≤ u32Max :=
    (List.length_filter_le _ _).trans h
  obtain ⟨hfree, hopen, -⟩ := countSecretAlertObservability_counts hactive
  have hmeasured := countAlertObservableEnabled_eq hactive
  have hsum : (activeRepos repositories).countP alertFree +
      (activeRepos repositories).countP (fun repo => alertMeasured repo && !alertFree repo) =
        (activeRepos repositories).countP alertMeasured := by
    rw [← Tally.countP_or_of_disjoint fun repo hfree => by simp [hfree]]
    apply List.countP_congr
    intro repo _
    cases hfree : alertFree repo <;> simp [alertMeasured_of_free, hfree]
  have hle : saturatingAdd ((activeRepos repositories).countP alertFree)
      ((activeRepos repositories).countP fun repo => alertMeasured repo && !alertFree repo) =
        (activeRepos repositories).countP alertMeasured := by
    rw [saturatingAdd, Tally.add, hsum, min_eq_left (List.countP_le_length.trans hactive)]
  simp only [computeAlertFreeCoverage, aggregateMetrics, openSecretAlertPrevalence,
    RateMetric.denominator_withExtra, RateMetric.new, hfree, hopen, hmeasured, hle, max_self]

/-- An owner that every repository lists has metrics, of each as often as it lists the owner. -/
theorem alertFree_of_enriched {owner : String}
    (hactive : ∀ repo ∈ repositories, repo.repository.archived = false)
    (hlists : ∀ repo ∈ repositories, mentions toLowercase owner repo ≠ 0) :
    (repositories ≠ [] → ∃ m ∈ enrichOwnerMetricsWithLifecycle C toLowercase
      (buildOwnerMetrics toLowercase repositories) repositories runTimestamp, m.owner = owner) ∧
    ∀ m ∈ enrichOwnerMetricsWithLifecycle C toLowercase
      (buildOwnerMetrics toLowercase repositories) repositories runTimestamp, m.owner = owner →
        m.perControlCoverage["alert_free"]? =
          some (alertFreeMetric (Tally.repeated (mentions toLowercase owner) repositories)) := by
  obtain ⟨enrich, henrich, hkept⟩ := enrichOwnerMetricsWithLifecycle_eq C toLowercase
    (buildOwnerMetrics toLowercase repositories) repositories runTimestamp
  rw [henrich]
  constructor
  · intro hne
    obtain ⟨o, ho, howner⟩ := exists_ownerMetrics hactive hlists hne
    exact ⟨enrich o, List.mem_map_of_mem ho, (hkept o).1.trans howner⟩
  · intro m hm howner
    obtain ⟨o, ho, rfl⟩ := List.mem_map.mp hm
    obtain ⟨key, displayName, repos, hentry, rfl⟩ := mem_buildOwnerMetrics.mp ho
    have hkey : key = owner := (hkept _).1.symm.trans howner
    have hrepos : (buildOwnerRepoMap toLowercase repositories).reposOf owner =
        Tally.repeated (mentions toLowercase owner) repositories := reposOf_eq hactive
    rw [OwnerRepoMap.reposOf, ← hkey, hentry] at hrepos
    rw [(hkept _).2 _ hentry, ← hkey]
    exact congrArg (some ∘ alertFreeMetric) hrepos

/--
The card and the page agree with each other and with the counters, and so does the rate of an
owner that every repository lists once, up to case.
-/
theorem alertFree_agrees (h : repositories.length < 2 ^ 32) :
    let evidence := evidenceOf toLowercase organization runTimestamp archivedRepos repositories
    ∃ page, buildAlertFreeViewModel D evidence = .ok page ∧ AlertFreeAgrees D evidence page ∧
      ∀ owner, (∀ repo ∈ repositories, repo.repository.archived = false ∧
          mentions toLowercase owner repo = 1) →
        (repositories ≠ [] → ∃ m ∈ enrichOwnerMetricsWithLifecycle C toLowercase
          evidence.metrics.ownerMetrics repositories runTimestamp, m.owner = owner) ∧
        ∀ m ∈ enrichOwnerMetricsWithLifecycle C toLowercase evidence.metrics.ownerMetrics
          repositories runTimestamp, m.owner = owner →
            ∃ metric, m.perControlCoverage["alert_free"]? = some metric ∧
              metric.numerator = page.numerator ∧ metric.denominator = page.denominator ∧
              metric.extra["unobservable"]? =
                some evidence.metrics.secretAlertCounts.unobservable := by
  intro evidence
  have hmax : repositories.length ≤ u32Max := by
    unfold u32Max
    omega
  have hactive : (activeRepos repositories).length ≤ u32Max :=
    (List.length_filter_le _ _).trans hmax
  have hcard := computeAlertFreeCoverage_eq D toLowercase organization runTimestamp archivedRepos
    repositories hmax
  have hunobservable : evidence.metrics.secretAlertCounts.unobservable =
      (activeRepos repositories).countP fun repo => !alertMeasured repo :=
    (countSecretAlertObservability_counts hactive).2.2
  refine ⟨_, buildAlertFreeViewModel_ok hmax, ?_, fun owner hlisted => ?_⟩
  · constructor
    · rw [hcard]
    · rw [hcard]
    · rw [hcard]
    · exact metCount_eligible.symm
    · exact length_eligible.symm
    · exact rows_perm
    · have hrows : (alertFreeRows D evidence).unmeasured.length =
          (activeRepos repositories).countP fun repo => !alertMeasured repo := length_unmeasured
      exact hunobservable.trans hrows.symm
  · have honce : ∀ repo ∈ repositories, mentions toLowercase owner repo = 1 :=
      fun repo hrepo => (hlisted repo hrepo).2
    obtain ⟨hexists, hrate⟩ := alertFree_of_enriched C toLowercase runTimestamp repositories
      (fun repo hrepo => (hlisted repo hrepo).1)
      fun repo hrepo => (honce repo hrepo).trans_ne one_ne_zero
    refine ⟨hexists, fun m hm howner => ⟨_, hrate m hm howner, ?_⟩⟩
    have hall : activeRepos repositories = repositories := by
      apply List.filter_eq_self.mpr
      intro repo hrepo
      rw [(hlisted repo hrepo).1]
      rfl
    rw [hunobservable, Tally.repeated_eq_self honce]
    dsimp only
    rw [hall]
    exact alertFreeMetric_counts hmax

end Agreement

section Sample

open Collector

/-- Rates with one digit after the point, and segments that need no encoding. -/
def plainRendering : Rendering where
  inTenths quotient := (quotient * 1000 + 1 / 2).floor / 10
  showRate rate :=
    let tenths := (rate * 10 + 1 / 2).floor
    toString (tenths / 10) ++ "." ++ toString (tenths % 10)
  encode segment := segment

/-- A calendar that parses nothing. -/
def blankCalendar : Calendar := ⟨fun _ => none, fun _ => none⟩

/-- A repository that lists these owners, with secret scanning and no open alert. -/
def cleanRepository (uniqueOwners : List String) : RepositoryEvidence :=
  let repo := Codeowners.ownedRepository ""
  { repo with checks := { repo.checks with
      secretScanning := .enabled (.metadata none (.observable .orgSummary false none)) ""
      codeowners := .conforming (.parsed ⟨[⟨"*", uniqueOwners⟩], uniqueOwners, 0⟩) "" } }

/-- The only repository of a team has no open alert, on the card and on every page. -/
theorem alertFree_agrees_clean :
    let repositories := [cleanRepository ["@Org/Team"]]
    let evidence := evidenceOf asciiLowercase "org" "" 0 repositories
    ∃ page, buildAlertFreeViewModel plainRendering evidence = .ok page ∧
      AlertFreeAgrees plainRendering evidence page ∧
      ∃ m ∈ enrichOwnerMetricsWithLifecycle blankCalendar asciiLowercase
        evidence.metrics.ownerMetrics repositories "", m.owner = "@org/team" ∧
          ∃ metric, m.perControlCoverage["alert_free"]? = some metric ∧
            metric.numerator = page.numerator ∧ metric.denominator = page.denominator ∧
            metric.extra["unobservable"]? =
              some evidence.metrics.secretAlertCounts.unobservable := by
  obtain ⟨page, hpage, hagrees, howners⟩ := alertFree_agrees plainRendering blankCalendar
    asciiLowercase "org" "" 0 [cleanRepository ["@Org/Team"]] (by decide)
  obtain ⟨hexists, hrates⟩ := howners "@org/team" (by decide)
  obtain ⟨m, hm, howner⟩ := hexists (List.cons_ne_nil _ _)
  exact ⟨page, hpage, hagrees, m, hm, howner, hrates m hm howner⟩

/-- A record with two spellings of its owner counts twice for the owner, and once on the page. -/
theorem alertFree_listed_twice :
    let repositories := [cleanRepository ["@User", "@user"]]
    let evidence := evidenceOf asciiLowercase "org" "" 0 repositories
    (∀ repo ∈ repositories, repo.repository.archived = false ∧
      namesOwner asciiLowercase "@user" repo = true) ∧
    ∃ page, buildAlertFreeViewModel plainRendering evidence = .ok page ∧
      page.numerator = 1 ∧ page.denominator = 1 ∧
      ∃ m ∈ enrichOwnerMetricsWithLifecycle blankCalendar asciiLowercase
        evidence.metrics.ownerMetrics repositories "", m.owner = "@user" ∧
          ∃ metric, m.perControlCoverage["alert_free"]? = some metric ∧
            metric.numerator = 2 ∧ metric.denominator = 2 := by
  have hlists : ∀ repo ∈ [cleanRepository ["@User", "@user"]],
      mentions asciiLowercase "@user" repo ≠ 0 := by decide
  obtain ⟨hexists, hrate⟩ := alertFree_of_enriched blankCalendar asciiLowercase ""
    [cleanRepository ["@User", "@user"]] (by decide) hlists
  obtain ⟨m, hm, howner⟩ := hexists (List.cons_ne_nil _ _)
  exact ⟨by decide, _, buildAlertFreeViewModel_ok (by decide), by decide, by decide, m, hm, howner,
    _, hrate m hm howner, by decide, by decide⟩

end Sample

end GhReport.Report
