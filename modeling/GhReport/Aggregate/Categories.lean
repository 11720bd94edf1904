import GhReport.Aggregate.Metrics
import GhReport.Library.KeyMap
import Mathlib.Algebra.GroupWithZero.Nat

/-! # Tallies of categories

Every coverage and every row of exclusions comes from one tally of score
categories. The organisation and the owners differ only in how they take each
check, and in the repositories they count.
-/

namespace GhReport.Aggregate

open Domain

/-! ## Tallies of lists -/

def ExclusionTally.get (tally : ExclusionTally) : ExclusionReason → ℕ
  | .permissionDenied => tally.permissionDenied
  | .unknown => tally.unknown
  | .notApplicable => tally.notApplicable
  | .other => tally.other

theorem ExclusionTally.ext_get {tally tally' : ExclusionTally}
    (h : ∀ reason, tally.get reason = tally'.get reason) : tally = tally' := by
  obtain ⟨permissionDenied, unknown, notApplicable, other⟩ := tally
  obtain rfl : permissionDenied = tally'.permissionDenied := h .permissionDenied
  obtain rfl : unknown = tally'.unknown := h .unknown
  obtain rfl : notApplicable = tally'.notApplicable := h .notApplicable
  obtain rfl : other = tally'.other := h .other
  rfl

theorem ExclusionTally.get_record (tally : ExclusionTally) (reason reason' : ExclusionReason) :
    (tally.record reason).get reason' =
      if reason = reason' then saturatingAdd (tally.get reason') 1 else tally.get reason' := by
  cases reason <;> cases reason' <;> rfl

namespace ControlTally

def ofList (categories : List ScoreCategory) : ControlTally := categories.foldl record {}

/-- Counters that record a category at each step hold the tally of the categories. -/
theorem eq_ofList {T α : Type*} (tally : T → ControlTally) {step : T → α → T}
    {category : α → ScoreCategory} {init : T} (hinit : tally init = {})
    (hstep : ∀ counts a, tally (step counts a) = (tally counts).record (category a))
    (l : List α) : tally (l.foldl step init) = ofList (l.map category) := by
  unfold ofList
  rw [List.foldl_map, ← hinit]
  exact (List.foldl_hom tally fun counts a => (hstep counts a).symm).symm

theorem pass_ofList (l : List ScoreCategory) :
    (ofList l).pass = min (l.countP (· = .pass)) u32Max := by
  refine Tally.foldl_countP_of_zero (s := {}) pass (· = .pass) ?_ rfl l
  intro tally category
  cases category <;> rfl

theorem fail_ofList (l : List ScoreCategory) :
    (ofList l).fail = min (l.countP (· = .fail)) u32Max := by
  refine Tally.foldl_countP_of_zero (s := {}) fail (· = .fail) ?_ rfl l
  intro tally category
  cases category <;> rfl

theorem excluded_ofList (l : List ScoreCategory) (reason : ExclusionReason) :
    (ofList l).excluded.get reason = min (l.countP (· = .excluded reason)) u32Max := by
  refine Tally.foldl_countP_of_zero (s := {})
    (fun tally : ControlTally => tally.excluded.get reason) (· = .excluded reason) ?_
    (by cases reason <;> rfl) l
  intro tally category
  cases category with
  | pass | fail => rfl
  | excluded recorded =>
    simp only [record, ExclusionTally.get_record, ScoreCategory.excluded.injEq, decide_eq_true_eq]
    rfl

theorem get_pos_iff (l : List ScoreCategory) (reason : ExclusionReason) :
    0 < (ofList l).excluded.get reason ↔ ScoreCategory.excluded reason ∈ l := by
  have hcount : 0 < l.countP (· = .excluded reason) ↔ ScoreCategory.excluded reason ∈ l := by
    simp [List.countP_pos_iff]
  rw [excluded_ofList, ← hcount, u32Max]
  omega

/-- Passed and failed checks together, as far as the denominator shows them. -/
theorem saturatingAdd_ofList (l : List ScoreCategory) :
    saturatingAdd (ofList l).pass (ofList l).fail =
      min (l.countP fun category => category = .pass || category = .fail) u32Max := by
  have hdisjoint : ∀ category : ScoreCategory, decide (category = .pass) = true →
      decide (category = .fail) = false := by
    intro category hpass
    rw [of_decide_eq_true hpass]
    rfl
  rw [pass_ofList, fail_ofList, Tally.countP_or_of_disjoint hdisjoint, saturatingAdd, Tally.add]
  omega

theorem coverageMetric_of_measured {tally : ControlTally}
    (h : saturatingAdd tally.pass tally.fail ≠ 0) :
    tally.coverageMetric = .new tally.pass (saturatingAdd tally.pass tally.fail) :=
  if_neg fun hfloor => h hfloor.1

theorem hasMeasurementFailure_ofList {l : List ScoreCategory} :
    (ofList l).excluded.hasMeasurementFailure = true ↔
      ∃ reason, ScoreCategory.excluded reason ∈ l ∧ reason ≠ .notApplicable := by
  have hdenied := get_pos_iff l .permissionDenied
  have hunknown := get_pos_iff l .unknown
  have hother := get_pos_iff l .other
  simp only [ExclusionTally.get] at hdenied hunknown hother
  simp only [ExclusionTally.hasMeasurementFailure, gt_iff_lt, Bool.or_eq_true, decide_eq_true_eq,
    hdenied, hunknown, hother]
  constructor
  · rintro ((h | h) | h)
    · exact ⟨_, h, nofun⟩
    · exact ⟨_, h, nofun⟩
    · exact ⟨_, h, nofun⟩
  · rintro ⟨reason, h, hne⟩
    cases reason with
    | permissionDenied => exact .inl (.inl h)
    | unknown => exact .inl (.inr h)
    | notApplicable => exact absurd rfl hne
    | other => exact .inr h

end ControlTally

/-! ## Rows of exclusions -/

namespace ExclusionTally

def rows (tally : ExclusionTally) (checkKind : CollectionHealthCheckKind) :
    List ScoreExclusionCount :=
  [.permissionDenied, .unknown, .notApplicable, .other].filterMap fun reason =>
    if tally.get reason > 0 then some ⟨checkKind, reason, tally.get reason⟩ else none

theorem pushCounts_eq (tally : ExclusionTally) (checkKind : CollectionHealthCheckKind)
    (out : List ScoreExclusionCount) :
    tally.pushCounts checkKind out = out ++ tally.rows checkKind := rfl

end ExclusionTally

/-- The exclusions of a check that the rows report for the given reasons. -/
def excludedCount (rows : List ScoreExclusionCount) (checkKind : CollectionHealthCheckKind)
    (p : ExclusionReason → Bool) : ℕ :=
  ((rows.filter fun row => row.checkKind = checkKind && p row.reason).map (·.count)).sum

@[simp] theorem excludedCount_append (rows rows' : List ScoreExclusionCount)
    (checkKind : CollectionHealthCheckKind) (p : ExclusionReason → Bool) :
    excludedCount (rows ++ rows') checkKind p =
      excludedCount rows checkKind p + excludedCount rows' checkKind p := by
  simp [excludedCount]

/-- What a tally holds for the given reasons. -/
def ExclusionTally.total (tally : ExclusionTally) (p : ExclusionReason → Bool) : ℕ :=
  (([.permissionDenied, .unknown, .notApplicable, .other].filter p).map tally.get).sum

theorem excludedCount_rows (tally : ExclusionTally)
    (checkKind checkKind' : CollectionHealthCheckKind) (p : ExclusionReason → Bool) :
    excludedCount (tally.rows checkKind) checkKind' p =
      if checkKind = checkKind' then tally.total p else 0 := by
  unfold ExclusionTally.rows ExclusionTally.total
  generalize [ExclusionReason.permissionDenied, .unknown, .notApplicable, .other] = reasons
  induction reasons with
  | nil => split <;> rfl
  | cons reason reasons ih =>
    unfold excludedCount at ih ⊢
    by_cases hpos : tally.get reason > 0
    · simp only [List.filterMap_cons, if_pos hpos]
      by_cases hkind : checkKind = checkKind'
      · rw [if_pos hkind] at ih ⊢
        cases hp : p reason <;> simp [hkind, hp, ← ih]
      · rw [if_neg hkind] at ih ⊢
        simp [hkind, ih]
    · simp only [List.filterMap_cons, if_neg hpos]
      rw [ih]
      have hzero : tally.get reason = 0 := by omega
      cases hp : p reason <;> simp [hp, hzero]

namespace CoverageControl

def checkKind : CoverageControl → CollectionHealthCheckKind
  | securityPolicy => .securityPolicy
  | secretScanning => .secretScanning
  | dependabot => .dependabot
  | codeowners => .codeowners
  | branchProtection => .branchProtection

end CoverageControl

/-- The rows of the five controls, in the order in which they are pushed. -/
def exclusionRows (tallies : CoverageControl → ExclusionTally) : List ScoreExclusionCount :=
  [.securityPolicy, .secretScanning, .dependabot, .branchProtection, .codeowners].flatMap
    fun control => (tallies control).rows control.checkKind

theorem excludedCount_exclusionRows (tallies : CoverageControl → ExclusionTally)
    (control : CoverageControl) (p : ExclusionReason → Bool) :
    excludedCount (exclusionRows tallies) control.checkKind p = (tallies control).total p := by
  unfold exclusionRows
  cases control <;>
    simp [List.flatMap_cons, excludedCount_rows, CoverageControl.checkKind]

theorem total_eq_get (tally : ExclusionTally) (reason : ExclusionReason) :
    tally.total (· = reason) = tally.get reason := by
  cases reason <;> exact Nat.add_zero _

/-- The rows show the tally of every control. -/
theorem exclusionRows_inj {tallies tallies' : CoverageControl → ExclusionTally} :
    exclusionRows tallies = exclusionRows tallies' ↔ tallies = tallies' := by
  constructor
  · intro h
    funext control
    apply ExclusionTally.ext_get
    intro reason
    have hcount := congrArg (excludedCount · control.checkKind (· = reason)) h
    simpa only [excludedCount_exclusionRows, total_eq_get] using hcount
  · rintro rfl
    rfl

/-! ## The organisation -/

/-- How the organisation takes a check: its counters go by the status. -/
def CoverageControl.statusCategory (control : CoverageControl) (repo : RepositoryEvidence) :
    ScoreCategory :=
  match control with
  | securityPolicy =>
    match repo.checks.securityPolicy.status with
    | .pass => .pass
    | .fail => .fail
    | .unknown | .notApplicable => .excluded .unknown
  | secretScanning =>
    match repo.checks.secretScanning.status with
    | .enabled => .pass
    | .disabled => .fail
    | .permissionDenied => .excluded .permissionDenied
    | .unknown => .excluded .unknown
  | dependabot => dependabotCategory repo.checks.dependabotSecurityUpdates.status
  | codeowners =>
    match repo.checks.codeowners.status with
    | .conforming | .nonConforming => .pass
    | .absent => .fail
    | .unknown => .excluded .unknown
  | branchProtection => repo.checks.branchProtection.scoreCategory

/-- What a control comes to over the organisation. -/
def CoverageControl.orgTally (control : CoverageControl) (repositories : List RepositoryEvidence) :
    ControlTally :=
  .ofList ((repositories.filter control.inPopulation).map control.statusCategory)

def PolicyCounts.tally (counts : PolicyCounts) : ControlTally :=
  ⟨saturatingAdd counts.viaSetting counts.viaFile, counts.missing, exclusionTallyFromPolicy counts⟩

def SecretScanningCounts.tally (counts : SecretScanningCounts) : ControlTally :=
  ⟨counts.enabled, counts.disabled, exclusionTallyFromSecretScanning counts⟩

def DependabotCounts.tally (counts : DependabotCounts) : ControlTally :=
  ⟨counts.enabled, saturatingAdd counts.paused counts.disabled,
    exclusionTallyFromDependabot counts⟩

def CodeownersCounts.tally (counts : CodeownersCounts) : ControlTally :=
  ⟨saturatingAdd counts.conforming counts.nonConforming, counts.absent,
    exclusionTallyFromCodeowners counts⟩

def BranchProtectionCounts.tally (counts : BranchProtectionCounts) (exclusions : ExclusionTally) :
    ControlTally :=
  ⟨counts.pass, counts.fail, exclusions⟩

theorem tally_countPolicyStatuses (l : List RepositoryEvidence) :
    (countPolicyStatuses l).tally =
      .ofList (l.map CoverageControl.securityPolicy.statusCategory) := by
  refine ControlTally.eq_ofList PolicyCounts.tally rfl ?_ l
  intro counts repo
  unfold countPolicyStatus CoverageControl.statusCategory
  dsimp only
  cases repo.checks.securityPolicy.status with
  | pass =>
    dsimp only
    split
    · simp only [PolicyCounts.tally, ControlTally.record, exclusionTallyFromPolicy, saturatingAdd,
        Tally.add_right_comm counts.viaSetting 1]
    · simp only [PolicyCounts.tally, ControlTally.record, exclusionTallyFromPolicy, saturatingAdd,
        Tally.add_assoc]
  | fail | unknown | notApplicable => rfl

theorem tally_countSecretScanningStatuses (l : List RepositoryEvidence) :
    (countSecretScanningStatuses l).tally =
      .ofList (l.map CoverageControl.secretScanning.statusCategory) := by
  refine ControlTally.eq_ofList SecretScanningCounts.tally rfl ?_ l
  intro counts repo
  unfold countSecretScanningStatus CoverageControl.statusCategory
  cases repo.checks.secretScanning.status <;> rfl

theorem tally_countDependabotStatuses (l : List RepositoryEvidence) :
    (countDependabotStatuses l).tally =
      .ofList (l.map CoverageControl.dependabot.statusCategory) := by
  refine ControlTally.eq_ofList DependabotCounts.tally rfl ?_ l
  intro counts repo
  unfold countDependabotStatus CoverageControl.statusCategory
  cases repo.checks.dependabotSecurityUpdates.status with
  | paused =>
    simp only [DependabotCounts.tally, ControlTally.record, dependabotCategory,
      exclusionTallyFromDependabot, saturatingAdd, Tally.add_right_comm counts.paused 1]
  | disabled =>
    simp only [DependabotCounts.tally, ControlTally.record, dependabotCategory,
      exclusionTallyFromDependabot, saturatingAdd, Tally.add_assoc]
  | enabled | unknown => rfl

theorem tally_countCodeownersStatuses (l : List RepositoryEvidence) :
    (countCodeownersStatuses l).tally =
      .ofList (l.map CoverageControl.codeowners.statusCategory) := by
  refine ControlTally.eq_ofList CodeownersCounts.tally rfl ?_ l
  intro counts repo
  unfold countCodeownersStatus CoverageControl.statusCategory
  dsimp only
  cases repo.checks.codeowners.status with
  | conforming =>
    split <;> simp only [CodeownersCounts.tally, ControlTally.record, exclusionTallyFromCodeowners,
      saturatingAdd, Tally.add_right_comm counts.conforming 1]
  | nonConforming =>
    split <;> simp only [CodeownersCounts.tally, ControlTally.record, exclusionTallyFromCodeowners,
      saturatingAdd, Tally.add_assoc]
  | absent | unknown => split <;> rfl

/-- The statuses and the reasons of branch protection are counted apart. -/
theorem tally_countBranchProtectionStatuses (l : List RepositoryEvidence) :
    (countBranchProtectionStatuses l).tally (countBranchProtectionExclusionReasons l) =
      .ofList (l.map CoverageControl.branchProtection.statusCategory) := by
  have hboth : ∀ (counts : BranchProtectionCounts) (exclusions : ExclusionTally),
      (l.foldl countBranchProtectionStatus counts).tally
          (l.foldl (fun exclusions repo => exclusions.recordCategory
            repo.checks.branchProtection.scoreCategory) exclusions) =
        (l.map CoverageControl.branchProtection.statusCategory).foldl ControlTally.record
          (counts.tally exclusions) := by
    induction l with
    | nil => exact fun _ _ => rfl
    | cons repo l ih =>
      intro counts exclusions
      rw [List.map_cons, List.foldl_cons, List.foldl_cons, List.foldl_cons, ih]
      congr 1
      unfold countBranchProtectionStatus CoverageControl.statusCategory
      cases repo.checks.branchProtection <;> rfl
  exact hboth {} {}

variable (toLowercase : String → String) (repositories : List RepositoryEvidence)

/-- The coverages are the rates of the tallies. -/
theorem coverage_aggregateMetrics (control : CoverageControl) :
    (control.coverage (aggregateMetrics toLowercase repositories)).numerator =
        (control.orgTally repositories).coverageMetric.numerator ∧
      (control.coverage (aggregateMetrics toLowercase repositories)).denominator =
        (control.orgTally repositories).coverageMetric.denominator := by
  unfold CoverageControl.orgTally
  cases control with
  | securityPolicy =>
    rw [← tally_countPolicyStatuses]
    simp only [CoverageControl.coverage, aggregateMetrics, policyCoverage,
      RateMetric.numerator_withExtra, RateMetric.denominator_withExtra]
    exact ⟨rfl, rfl⟩
  | secretScanning =>
    rw [← tally_countSecretScanningStatuses]
    simp only [CoverageControl.coverage, aggregateMetrics, secretScanningCoverage,
      RateMetric.numerator_withExtra, RateMetric.denominator_withExtra]
    exact ⟨rfl, rfl⟩
  | dependabot =>
    rw [← tally_countDependabotStatuses]
    simp only [CoverageControl.coverage, aggregateMetrics, dependabotCoverage,
      RateMetric.numerator_withExtra, RateMetric.denominator_withExtra]
    exact ⟨rfl, rfl⟩
  | codeowners =>
    rw [← tally_countCodeownersStatuses]
    simp only [CoverageControl.coverage, aggregateMetrics, codeownersCoverage,
      RateMetric.numerator_withExtra, RateMetric.denominator_withExtra]
    exact ⟨rfl, rfl⟩
  | branchProtection =>
    rw [← tally_countBranchProtectionStatuses]
    simp only [CoverageControl.coverage, aggregateMetrics, branchProtectionCoverage,
      RateMetric.numerator_withExtra, RateMetric.denominator_withExtra]
    exact ⟨rfl, rfl⟩

/-- The rows are the exclusions of the tallies. -/
theorem scoreExclusionCounts_aggregateMetrics :
    (aggregateMetrics toLowercase repositories).scoreExclusionCounts =
      exclusionRows fun control => (control.orgTally repositories).excluded := by
  simp only [exclusionRows, List.flatMap_cons, List.flatMap_nil, List.append_nil,
    CoverageControl.orgTally, ← tally_countPolicyStatuses, ← tally_countSecretScanningStatuses,
    ← tally_countDependabotStatuses, ← tally_countBranchProtectionStatuses,
    ← tally_countCodeownersStatuses]
  simp only [aggregateMetrics, ExclusionTally.pushCounts_eq, List.nil_append, List.append_assoc]
  rfl

/-! ## Owners -/

/-- How the metrics of an owner take a check: by the category of its result. -/
def CoverageControl.resultCategory (control : CoverageControl) (repo : RepositoryEvidence) :
    ScoreCategory :=
  match control with
  | securityPolicy => repo.checks.securityPolicy.scoreCategory
  | secretScanning => repo.checks.secretScanning.scoreCategory
  | dependabot => dependabotCategory repo.checks.dependabotSecurityUpdates.status
  | codeowners =>
    match repo.checks.codeowners.scoreCategory with
    | .excluded reason => .excluded reason
    | .pass | .fail =>
      if repo.checks.codeowners.status = .conforming
          ∨ repo.checks.codeowners.status = .nonConforming then .pass
      else .fail
  | branchProtection => repo.checks.branchProtection.scoreCategory

/-- What a control comes to over the repositories of an owner. -/
def CoverageControl.ownerTally (control : CoverageControl) (repos : List RepositoryEvidence) :
    ControlTally :=
  .ofList (repos.map control.resultCategory)

/-- The control as a key of the coverages of an owner. -/
def CoverageControl.key : CoverageControl → String
  | securityPolicy => "security_policy"
  | secretScanning => "secret_scanning"
  | dependabot => "dependabot_security_updates"
  | codeowners => "codeowners"
  | branchProtection => "branch_protection"

/-- The counters of one control. -/
def OwnerCounters.of (counters : OwnerCounters) : CoverageControl → ControlTally
  | .securityPolicy => counters.sp
  | .secretScanning => counters.secret
  | .dependabot => counters.db
  | .codeowners => counters.co
  | .branchProtection => counters.bp

theorem ownerCounters_eq (repos : List RepositoryEvidence) (control : CoverageControl) :
    (repos.foldl OwnerCounters.count {}).of control = control.ownerTally repos := by
  refine ControlTally.eq_ofList (fun counters : OwnerCounters => counters.of control)
    (by cases control <;> rfl) ?_ repos
  intro counters repo
  cases control with
  | codeowners =>
    unfold OwnerCounters.count OwnerCounters.of CoverageControl.resultCategory
    dsimp only
    cases repo.checks.codeowners.scoreCategory with
    | excluded reason => rfl
    | pass | fail => exact (apply_ite counters.co.record ..).symm
  | securityPolicy | secretScanning | dependabot | branchProtection => rfl

theorem perControlCoverage_eq (repos : List RepositoryEvidence) (control : CoverageControl) :
    (buildPerControlCoverage repos).perControlCoverage[control.key]? =
      some (control.ownerTally repos).coverageMetric := by
  rw [← ownerCounters_eq]
  unfold buildPerControlCoverage
  simp only [KeyMap.getElem?_insert]
  cases control <;> rfl

theorem scoreExclusionCounts_eq (repos : List RepositoryEvidence) :
    (buildPerControlCoverage repos).scoreExclusionCounts =
      exclusionRows fun control => (control.ownerTally repos).excluded := by
  simp only [exclusionRows, List.flatMap_cons, List.flatMap_nil, List.append_nil,
    ← ownerCounters_eq, buildPerControlCoverage, ExclusionTally.pushCounts_eq, List.nil_append,
    List.append_assoc]
  rfl

end GhReport.Aggregate
