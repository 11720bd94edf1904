import GhReport.Aggregate.Categories

/-! # Drill-downs

The repositories listed behind the denominator of a coverage are classified apart
from the counters of the coverage. Both agree, except that the counters take a
public repository to which the policy does not apply as not measured.
-/

namespace GhReport.Domain

/-- Excluded for one of the given reasons. -/
def ScoreCategory.excludedFor (p : ExclusionReason → Bool) : ScoreCategory → Bool
  | pass | fail => false
  | excluded reason => p reason

end GhReport.Domain

namespace GhReport.Aggregate

open Domain

namespace DenominatorMembership

/-- Outside the denominator for one of the given reasons. -/
def excludedFor (p : UnmeasuredReason → Bool) : DenominatorMembership → Bool
  | eligible _ => false
  | excluded reason => p reason

theorem excludedFor_all (membership : DenominatorMembership) :
    (membership.excludedFor fun _ => true) = !membership.isEligible := by
  cases membership <;> rfl

theorem excludedFor_otherwise {membership : DenominatorMembership} {p : UnmeasuredReason → Bool}
    (h : membership.excludedFor p = false) :
    (membership.excludedFor fun reason => !p reason) = !membership.isEligible := by
  cases membership with
  | eligible outcome => rfl
  | excluded reason => exact congrArg not h

end DenominatorMembership

/-! ## Full counts -/

theorem ExclusionTally.total_eq (tally : ExclusionTally) (p : ExclusionReason → Bool) :
    tally.total p = (if p .permissionDenied then tally.permissionDenied else 0)
      + (if p .unknown then tally.unknown else 0)
      + (if p .notApplicable then tally.notApplicable else 0)
      + (if p .other then tally.other else 0) := by
  unfold total
  cases hdenied : p .permissionDenied <;> cases hunknown : p .unknown <;>
    cases hnotApplicable : p .notApplicable <;> cases hother : p .other <;>
      simp [hdenied, hunknown, hnotApplicable, hother, get, Nat.add_assoc]

namespace ControlTally

/-- As long as no counter is full, a tally holds every exclusion. -/
theorem total_ofList {l : List ScoreCategory} (h : l.length ≤ u32Max)
    (p : ExclusionReason → Bool) :
    (ofList l).excluded.total p = l.countP (ScoreCategory.excludedFor p) := by
  have hget : ∀ reason, (ofList l).excluded.get reason = l.countP (· = .excluded reason) := by
    intro reason
    rw [excluded_ofList, min_eq_left (List.countP_le_length.trans h)]
  have hdenied := hget .permissionDenied
  have hunknown := hget .unknown
  have hnotApplicable := hget .notApplicable
  have hother := hget .other
  simp only [ExclusionTally.get] at hdenied hunknown hnotApplicable hother
  rw [ExclusionTally.total_eq, hdenied, hunknown, hnotApplicable, hother]
  clear h hget hdenied hunknown hnotApplicable hother
  induction l with
  | nil => simp
  | cons category l ih =>
    simp only [List.countP_cons]
    rw [← ih]
    cases category with
    | pass | fail => simp [ScoreCategory.excludedFor]
    | excluded reason =>
      cases hp : p reason <;> cases reason <;> simp [ScoreCategory.excludedFor, hp] <;> omega

theorem numerator_le_denominator (l : List ScoreCategory) :
    (ofList l).coverageMetric.numerator ≤ (ofList l).coverageMetric.denominator := by
  have hpass : (ofList l).pass ≤ u32Max := (pass_ofList l).trans_le (min_le_right _ _)
  unfold coverageMetric Aggregate.coverageMetric
  dsimp only
  split
  · exact Nat.zero_le 1
  · exact le_min (Nat.le_add_right _ _) hpass

theorem coverageMetric_of_unmeasured {tally : ControlTally}
    (h : saturatingAdd tally.pass tally.fail = 0) :
    tally.coverageMetric.numerator = 0 ∧ tally.coverageMetric.denominator =
      if tally.excluded.hasMeasurementFailure then 1 else 0 := by
  have hpass : tally.pass = 0 := by
    simp only [saturatingAdd, Tally.add, u32Max] at h
    omega
  unfold coverageMetric Aggregate.coverageMetric
  simp only [h, true_and]
  split
  · exact ⟨rfl, rfl⟩
  · exact ⟨hpass, rfl⟩

end ControlTally

/-! ## Two classifications -/

namespace CoverageControl

/-- The reasons that count as not applicable: the counters of the policy have no such reason. -/
def notApplicable (control : CoverageControl) (reason : UnmeasuredReason) : Bool :=
  control ≠ securityPolicy && reason = .notApplicable

variable (control : CoverageControl) (repo : RepositoryEvidence)

theorem classify_eq_met_iff :
    control.classify repo = .eligible .met ↔ control.statusCategory repo = .pass := by
  unfold classify statusCategory
  cases control with
  | securityPolicy => dsimp only; cases repo.checks.securityPolicy.status <;> simp
  | secretScanning => dsimp only; cases repo.checks.secretScanning.status <;> simp
  | dependabot =>
    dsimp only
    cases repo.checks.dependabotSecurityUpdates.status <;> simp [dependabotCategory]
  | codeowners => dsimp only; cases repo.checks.codeowners.status <;> simp
  | branchProtection =>
    dsimp only
    cases repo.checks.branchProtection <;> simp [BranchProtectionResult.scoreCategory]

theorem isEligible_classify : (control.classify repo).isEligible =
    (control.statusCategory repo = .pass || control.statusCategory repo = .fail) := by
  unfold classify statusCategory
  cases control with
  | securityPolicy => dsimp only; cases repo.checks.securityPolicy.status <;> rfl
  | secretScanning => dsimp only; cases repo.checks.secretScanning.status <;> rfl
  | dependabot => dsimp only; cases repo.checks.dependabotSecurityUpdates.status <;> rfl
  | codeowners => dsimp only; cases repo.checks.codeowners.status <;> rfl
  | branchProtection => dsimp only; cases repo.checks.branchProtection <;> rfl

/-- The counters never count a control as not applicable. -/
theorem statusCategory_ne_notApplicable :
    control.statusCategory repo ≠ .excluded .notApplicable := by
  unfold statusCategory
  cases control with
  | securityPolicy => dsimp only; cases repo.checks.securityPolicy.status <;> simp
  | secretScanning => dsimp only; cases repo.checks.secretScanning.status <;> simp
  | dependabot =>
    dsimp only
    cases repo.checks.dependabotSecurityUpdates.status <;> simp [dependabotCategory]
  | codeowners => dsimp only; cases repo.checks.codeowners.status <;> simp
  | branchProtection =>
    dsimp only
    cases repo.checks.branchProtection with
    | «protected» | unprotected => simp [BranchProtectionResult.scoreCategory]
    | unobservable _ reason => cases reason <;> simp [BranchProtectionResult.scoreCategory,
        exclusionReason]

/-- Only the policy is classified as not applicable. -/
theorem classify_notApplicable {reason : UnmeasuredReason}
    (h : control.classify repo = .excluded reason) : control.notApplicable reason = false := by
  unfold classify at h
  cases control with
  | securityPolicy => rfl
  | secretScanning =>
    dsimp only at h
    cases hstatus : repo.checks.secretScanning.status <;> rw [hstatus] at h <;> cases h <;> rfl
  | dependabot =>
    dsimp only at h
    cases hstatus : repo.checks.dependabotSecurityUpdates.status <;> rw [hstatus] at h <;> cases h
    rfl
  | codeowners =>
    dsimp only at h
    cases hstatus : repo.checks.codeowners.status <;> rw [hstatus] at h <;> cases h
    rfl
  | branchProtection =>
    dsimp only at h
    cases hresult : repo.checks.branchProtection with
    | «protected» | unprotected =>
      rw [hresult] at h
      cases h
    | unobservable _ cause =>
      rw [hresult] at h
      cases cause <;> cases h <;> rfl

theorem excludedFor_statusCategory :
    ((control.statusCategory repo).excludedFor (· = .notApplicable)) = false ∧
    ((control.statusCategory repo).excludedFor (· ≠ .notApplicable)) =
      !(control.classify repo).isEligible ∧
    ((control.statusCategory repo).excludedFor fun _ => true) =
      !(control.classify repo).isEligible := by
  have hne := control.statusCategory_ne_notApplicable repo
  rw [isEligible_classify]
  cases hcategory : control.statusCategory repo with
  | pass | fail => exact ⟨rfl, rfl, rfl⟩
  | excluded reason =>
    have hreason : reason ≠ .notApplicable := by
      rintro rfl
      exact hne hcategory
    exact ⟨decide_eq_false hreason, decide_eq_true hreason, rfl⟩

end CoverageControl

/-! ## Agreement -/

section Agreement

variable (toLowercase : String → String) (repositories : List RepositoryEvidence)
  (control : CoverageControl)

/--
The coverage of a control and its rows of exclusions agree with the repositories listed behind
its denominator, where the given reasons count as not applicable.
-/
structure DrillDownAgrees (notApplicable : UnmeasuredReason → Bool) : Prop where
  measured : (∃ entry ∈ controlDenominatorPopulation control repositories,
      entry.2.isEligible = true) →
    (control.coverage (aggregateMetrics toLowercase repositories)).denominator =
        denominatorRepoCount (controlDenominatorPopulation control repositories) ∧
      (control.coverage (aggregateMetrics toLowercase repositories)).numerator =
        denominatorMetCount (controlDenominatorPopulation control repositories)
  unmeasured : (∀ entry ∈ controlDenominatorPopulation control repositories,
      entry.2.isEligible = false) →
    (control.coverage (aggregateMetrics toLowercase repositories)).numerator = 0 ∧
      (control.coverage (aggregateMetrics toLowercase repositories)).denominator =
        if ∃ entry ∈ controlDenominatorPopulation control repositories,
            entry.2.excludedFor (fun reason => !notApplicable reason) = true then 1 else 0
  numerator_le : (control.coverage (aggregateMetrics toLowercase repositories)).numerator ≤
    (control.coverage (aggregateMetrics toLowercase repositories)).denominator
  excluded :
    excludedCount (aggregateMetrics toLowercase repositories).scoreExclusionCounts
        control.checkKind (fun _ => true) =
      (controlDenominatorPopulation control repositories).countP fun entry =>
        entry.2.excludedFor fun _ => true
  excluded_notApplicable :
    excludedCount (aggregateMetrics toLowercase repositories).scoreExclusionCounts
        control.checkKind (· = .notApplicable) =
      (controlDenominatorPopulation control repositories).countP fun entry =>
        entry.2.excludedFor notApplicable
  excluded_otherwise :
    excludedCount (aggregateMetrics toLowercase repositories).scoreExclusionCounts
        control.checkKind (· ≠ .notApplicable) =
      (controlDenominatorPopulation control repositories).countP fun entry =>
        entry.2.excludedFor fun reason => !notApplicable reason

/-- The categories that the tally of a control is made of. -/
def CoverageControl.categories : List ScoreCategory :=
  (repositories.filter control.inPopulation).map control.statusCategory

theorem countP_population (p : DenominatorMembership → Bool) :
    (controlDenominatorPopulation control repositories).countP (fun entry => p entry.2) =
      (repositories.filter control.inPopulation).countP fun repo => p (control.classify repo) :=
  List.countP_map

theorem countP_categories (p : ScoreCategory → Bool) :
    (control.categories repositories).countP p =
      (repositories.filter control.inPopulation).countP fun repo =>
        p (control.statusCategory repo) :=
  List.countP_map

theorem denominatorRepoCount_eq :
    denominatorRepoCount (controlDenominatorPopulation control repositories) =
      saturatingAdd (control.orgTally repositories).pass (control.orgTally repositories).fail := by
  have hcount := countP_population repositories control DenominatorMembership.isEligible
  have hcategories := countP_categories repositories control
    fun category => category = .pass || category = .fail
  unfold denominatorRepoCount countAsU32
  rw [← List.countP_eq_length_filter, hcount]
  refine Eq.trans ?_ (ControlTally.saturatingAdd_ofList (control.categories repositories)).symm
  rw [hcategories]
  simp only [control.isEligible_classify]

theorem denominatorMetCount_eq :
    denominatorMetCount (controlDenominatorPopulation control repositories) =
      (control.orgTally repositories).pass := by
  have hcount := countP_population repositories control (· = .eligible .met)
  have hcategories := countP_categories repositories control (· = .pass)
  unfold denominatorMetCount countAsU32
  rw [← List.countP_eq_length_filter, hcount]
  refine Eq.trans ?_ (ControlTally.pass_ofList (control.categories repositories)).symm
  rw [hcategories]
  simp only [control.classify_eq_met_iff]

/-- A control has a failure of measurement when something listed is outside its denominator. -/
theorem hasMeasurementFailure_orgTally :
    (control.orgTally repositories).excluded.hasMeasurementFailure = true ↔
      ∃ entry ∈ controlDenominatorPopulation control repositories,
        (!entry.2.isEligible) = true := by
  unfold CoverageControl.orgTally controlDenominatorPopulation
  rw [ControlTally.hasMeasurementFailure_ofList]
  simp only [List.mem_map, exists_exists_and_eq_and,
    ← (control.excludedFor_statusCategory _).2.1]
  constructor
  · rintro ⟨reason, ⟨repo, hrepo, hcategory⟩, hreason⟩
    refine ⟨repo, hrepo, ?_⟩
    rw [hcategory]
    exact decide_eq_true hreason
  · rintro ⟨repo, hrepo, hexcluded⟩
    cases hcategory : control.statusCategory repo with
    | pass | fail =>
      rw [hcategory] at hexcluded
      cases hexcluded
    | excluded reason =>
      rw [hcategory] at hexcluded
      exact ⟨reason, ⟨repo, hrepo, hcategory⟩, of_decide_eq_true hexcluded⟩

/-- The rows hold the exclusions of the population, as long as no counter is full. -/
theorem excludedCount_aggregateMetrics (h : repositories.length < 2 ^ 32)
    (p : ExclusionReason → Bool) :
    excludedCount (aggregateMetrics toLowercase repositories).scoreExclusionCounts
        control.checkKind p =
      (repositories.filter control.inPopulation).countP fun repo =>
        (control.statusCategory repo).excludedFor p := by
  have hlength : (control.categories repositories).length ≤ u32Max := by
    have hfilter := List.length_filter_le control.inPopulation repositories
    rw [CoverageControl.categories, List.length_map, u32Max]
    omega
  rw [scoreExclusionCounts_aggregateMetrics, excludedCount_exclusionRows]
  exact (ControlTally.total_ofList hlength p).trans (countP_categories _ _ _)

/-- They agree exactly when nothing that is listed counts as not applicable. -/
theorem drillDownAgrees_iff (h : repositories.length < 2 ^ 32)
    (notApplicable : UnmeasuredReason → Bool) :
    DrillDownAgrees toLowercase repositories control notApplicable ↔
      ∀ entry ∈ controlDenominatorPopulation control repositories,
        entry.2.excludedFor notApplicable = false := by
  have hcount := excludedCount_aggregateMetrics toLowercase repositories control h
  have hpopulation := countP_population repositories control
  have hnever : excludedCount (aggregateMetrics toLowercase repositories).scoreExclusionCounts
      control.checkKind (· = .notApplicable) = 0 := by
    rw [hcount, List.countP_eq_zero]
    exact fun repo _ => Bool.eq_false_iff.mp (control.excludedFor_statusCategory repo).1
  constructor
  · intro hagrees entry hentry
    have hzero := hagrees.excluded_notApplicable.symm.trans hnever
    exact Bool.eq_false_iff.mpr (List.countP_eq_zero.mp hzero entry hentry)
  · intro hnone
    obtain ⟨hnumerator, hdenominator⟩ := coverage_aggregateMetrics toLowercase repositories control
    have heligible : (∃ entry ∈ controlDenominatorPopulation control repositories,
        entry.2.isEligible = true) ↔
          denominatorRepoCount (controlDenominatorPopulation control repositories) ≠ 0 := by
      unfold denominatorRepoCount countAsU32
      rw [← List.countP_eq_length_filter, ← List.countP_pos_iff, u32Max]
      omega
    have hotherwise := fun entry hentry =>
      DenominatorMembership.excludedFor_otherwise (hnone entry hentry)
    constructor
    · intro hmeasured
      rw [hnumerator, hdenominator, denominatorMetCount_eq, denominatorRepoCount_eq]
      rw [heligible, denominatorRepoCount_eq] at hmeasured
      rw [ControlTally.coverageMetric_of_measured hmeasured]
      exact ⟨rfl, rfl⟩
    · intro hunmeasured
      have hzero : saturatingAdd (control.orgTally repositories).pass
          (control.orgTally repositories).fail = 0 := by
        rw [← denominatorRepoCount_eq]
        by_contra hne
        obtain ⟨entry, hentry, hmeasured⟩ := heligible.mpr hne
        rw [hunmeasured entry hentry] at hmeasured
        cases hmeasured
      have hfailure : (∃ entry ∈ controlDenominatorPopulation control repositories,
          entry.2.excludedFor (fun reason => !notApplicable reason) = true) ↔
            (control.orgTally repositories).excluded.hasMeasurementFailure = true := by
        rw [hasMeasurementFailure_orgTally]
        exact exists_congr fun entry => and_congr_right fun hentry => by
          rw [hotherwise entry hentry]
      rw [hnumerator, hdenominator]
      simp only [hfailure]
      exact ControlTally.coverageMetric_of_unmeasured hzero
    · rw [hnumerator, hdenominator]
      exact ControlTally.numerator_le_denominator _
    · rw [hcount, hpopulation]
      simp only [DenominatorMembership.excludedFor_all,
        (control.excludedFor_statusCategory _).2.2]
    · rw [hnever, eq_comm, List.countP_eq_zero]
      exact fun entry hentry => Bool.eq_false_iff.mp (hnone entry hentry)
    · have hrest : (controlDenominatorPopulation control repositories).countP (fun entry =>
          entry.2.excludedFor fun reason => !notApplicable reason) =
            (controlDenominatorPopulation control repositories).countP fun entry =>
              !entry.2.isEligible :=
        List.countP_congr fun entry hentry => by rw [hotherwise entry hentry]
      rw [hcount, hrest, hpopulation fun membership => !membership.isEligible]
      simp only [(control.excludedFor_statusCategory _).2.1]

/--
Over fewer than `2 ^ 32` repositories, the coverage of every control and its rows of exclusions
agree with the repositories listed behind its denominator, where a public repository to which the
policy does not apply counts as not measured.
-/
theorem drillDown_agrees (h : repositories.length < 2 ^ 32) :
    DrillDownAgrees toLowercase repositories control control.notApplicable := by
  rw [drillDownAgrees_iff toLowercase repositories control h]
  intro entry hentry
  obtain ⟨repo, -, rfl⟩ := List.mem_map.mp hentry
  cases hclassify : control.classify repo with
  | eligible outcome => rfl
  | excluded reason => exact control.classify_notApplicable repo hclassify

end Agreement

/-! ## A public repository without an applicable policy -/

section Sample

def listedRepository : Repository where
  id := "1"
  nodeId := none
  name := "name"
  visibility := .public
  language := none
  defaultBranch := "main"
  archived := false
  inventoryKey := "1"
  updatedAt := none
  hasIssues := false
  pushedAt := none
  createdAt := none
  description := none
  fork := false
  isEmpty := false
  htmlUrl := none
  topics := []
  licenseSpdx := none

def listedEvidence (securityPolicy : SecurityPolicyResult) : RepositoryEvidence where
  repository := listedRepository
  checks :=
    { securityPolicy := securityPolicy
      secretScanning := .enabled (.metadata none (.observable .orgSummary false none)) ""
      dependabotSecurityUpdates := ⟨.enabled, none, ""⟩
      branchProtection := .unobservable "main" .transient none ""
      codeowners := .absent "" }
  lastCommit := none
  repoDetailsNotModified := false

theorem drillDown_agrees_listed :
    DrillDownAgrees String.toLower [listedEvidence (.absent ""), listedEvidence (.notApplicable "")]
      .securityPolicy CoverageControl.securityPolicy.notApplicable :=
  drillDown_agrees _ _ _ (by decide)

/-- The list says that the policy does not apply, the counters that it is unknown. -/
theorem not_drillDown_agrees :
    ¬ ∀ (repositories : List RepositoryEvidence) (control : CoverageControl),
      repositories.length < 2 ^ 32 →
        DrillDownAgrees String.toLower repositories control (· = .notApplicable) := by
  intro hclaim
  have hagrees := hclaim [listedEvidence (.notApplicable "")] .securityPolicy (by decide)
  have hnone := (drillDownAgrees_iff _ _ _ (by decide) _).mp hagrees
    (listedEvidence (.notApplicable ""), .excluded .notApplicable) (by decide)
  cases hnone

end Sample

end GhReport.Aggregate
