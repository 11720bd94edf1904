import GhReport.Aggregate.Owners

/-! # Organisation metrics

The coverage of each control over the whole organisation, and the repositories
behind the denominator of a coverage.
-/

namespace GhReport.Aggregate

open Domain

structure AggregatedMetrics where
  securityPolicyCoverage : RateMetric
  policyCounts : PolicyCounts
  secretScanningCoverage : RateMetric
  secretScanningCounts : SecretScanningCounts
  dependabotSecurityUpdatesCoverage : RateMetric
  dependabotSecurityUpdatesCounts : DependabotCounts
  openSecretAlertPrevalence : RateMetric
  secretAlertCounts : SecretAlertCounts
  branchProtectionCoverage : RateMetric
  branchProtectionCounts : BranchProtectionCounts
  codeownersCoverage : RateMetric
  codeownersCounts : CodeownersCounts
  ownerMetrics : List OwnerMetrics
  collectionHealthCounts : List CollectionHealthCount
  scoreExclusionCounts : List ScoreExclusionCount
  teamRosters : List TeamRoster

/-! ## Coverages -/

def policyCoverage (counts : PolicyCounts) (tally : ExclusionTally) : RateMetric :=
  let policyPass := saturatingAdd counts.viaSetting counts.viaFile
  let policyObservable := saturatingAdd policyPass counts.missing
  coverageMetric policyPass counts.missing tally
    |>.withExtra "observable_repositories" policyObservable
    |>.withExtra "unknown" counts.unknown

def secretScanningCoverage (counts : SecretScanningCounts) (tally : ExclusionTally)
    (taxonomy : CollectionHealthTaxonomyCounts) : RateMetric :=
  let observable := saturatingAdd counts.enabled counts.disabled
  coverageMetric counts.enabled counts.disabled tally
    |>.withExtra "disabled" counts.disabled
    |>.withExtra "permission_denied" counts.permissionDenied
    |>.withExtra "unknown" counts.unknown
    |>.withExtra "observable_repositories" observable
    |>.withExtra "collection_health_secret_scanning_permission_denied"
      taxonomy.secretScanningPermissionDenied

def dependabotCoverage (counts : DependabotCounts) (tally : ExclusionTally) : RateMetric :=
  let nonEnabled := saturatingAdd counts.paused counts.disabled
  let observable := saturatingAdd counts.enabled nonEnabled
  coverageMetric counts.enabled nonEnabled tally
    |>.withExtra "paused" counts.paused
    |>.withExtra "disabled" counts.disabled
    |>.withExtra "unknown" counts.unknown
    |>.withExtra "observable_repositories" observable

def openSecretAlertPrevalence (counts : SecretAlertCounts) (alertObservableEnabled : ℕ) :
    RateMetric :=
  RateMetric.new counts.reposWithOpenAlerts alertObservableEnabled
    |>.withExtra "repos_without_open_alerts" counts.reposWithoutOpenAlerts
    |>.withExtra "unobservable" counts.unobservable

def branchProtectionCoverage (counts : BranchProtectionCounts) (tally : ExclusionTally)
    (taxonomy : CollectionHealthTaxonomyCounts) : RateMetric :=
  let nonPass := counts.fail
  let observable := saturatingAdd counts.pass nonPass
  coverageMetric counts.pass nonPass tally
    |>.withExtra "insufficient" nonPass
    |>.withExtra "unknown" counts.unknown
    |>.withExtra "observable_repositories" observable
    |>.withExtra "collection_health_branch_protection_permission_suspected"
      taxonomy.branchProtectionPermissionSuspected
    |>.withExtra "collection_health_branch_protection_not_found_absent"
      taxonomy.branchProtectionNotFoundAbsent

def codeownersCoverage (counts : CodeownersCounts) (tally : ExclusionTally) : RateMetric :=
  let codeownersPresent := saturatingAdd counts.conforming counts.nonConforming
  let observable := saturatingAdd codeownersPresent counts.absent
  coverageMetric codeownersPresent counts.absent tally
    |>.withExtra "non_conforming" counts.nonConforming
    |>.withExtra "absent" counts.absent
    |>.withExtra "unknown" counts.unknown
    |>.withExtra "truncated" counts.truncated
    |>.withExtra "observable_repositories" observable

/-- The repositories that are not archived. -/
def activeRepos (repositories : List RepositoryEvidence) : List RepositoryEvidence :=
  repositories.filter fun r => !r.repository.archived

/-- The public repositories, archived ones included. -/
def publicPolicy (repositories : List RepositoryEvidence) : List RepositoryEvidence :=
  repositories.filter fun r => r.repository.visibility = .public

def aggregateMetrics (toLowercase : String → String) (repositories : List RepositoryEvidence) :
    AggregatedMetrics :=
  let active := activeRepos repositories
  let policyCounts := countPolicyStatuses (publicPolicy repositories)
  let secretCounts := countSecretScanningStatuses active
  let dependabotCounts := countDependabotStatuses active
  let branchCounts := countBranchProtectionStatuses active
  let codeownersCounts := countCodeownersStatuses active
  let secretAlertCounts := countSecretAlertObservability active
  let taxonomy := countCollectionHealthReasons active
  let policyTally := exclusionTallyFromPolicy policyCounts
  let secretTally := exclusionTallyFromSecretScanning secretCounts
  let dependabotTally := exclusionTallyFromDependabot dependabotCounts
  let branchProtectionExclusions := countBranchProtectionExclusionReasons active
  let codeownersTally := exclusionTallyFromCodeowners codeownersCounts
  { securityPolicyCoverage := policyCoverage policyCounts policyTally
    policyCounts := policyCounts
    secretScanningCoverage := secretScanningCoverage secretCounts secretTally taxonomy
    secretScanningCounts := secretCounts
    dependabotSecurityUpdatesCoverage := dependabotCoverage dependabotCounts dependabotTally
    dependabotSecurityUpdatesCounts := dependabotCounts
    openSecretAlertPrevalence :=
      openSecretAlertPrevalence secretAlertCounts (countAlertObservableEnabled active)
    secretAlertCounts := secretAlertCounts
    branchProtectionCoverage :=
      branchProtectionCoverage branchCounts branchProtectionExclusions taxonomy
    branchProtectionCounts := branchCounts
    codeownersCoverage := codeownersCoverage codeownersCounts codeownersTally
    codeownersCounts := codeownersCounts
    ownerMetrics := buildOwnerMetrics toLowercase repositories
    collectionHealthCounts := taxonomy.intoCounts
    scoreExclusionCounts := []
      |> policyTally.pushCounts .securityPolicy
      |> secretTally.pushCounts .secretScanning
      |> dependabotTally.pushCounts .dependabot
      |> branchProtectionExclusions.pushCounts .branchProtection
      |> codeownersTally.pushCounts .codeowners
    teamRosters := [] }

/-! ## Populations -/

/-- A control whose denominator can be listed repository by repository. -/
inductive CoverageControl where
  | securityPolicy | secretScanning | dependabot | codeowners | branchProtection
deriving DecidableEq

inductive UnmeasuredReason where
  | permissionDenied | unknown | notApplicable
deriving DecidableEq

inductive ControlOutcome where
  | met | unmet
deriving DecidableEq

/-- A measured repository is in the denominator; one that could not be measured is not. -/
inductive DenominatorMembership where
  | eligible (outcome : ControlOutcome)
  | excluded (reason : UnmeasuredReason)
deriving DecidableEq

namespace CoverageControl

def coverage (control : CoverageControl) (metrics : AggregatedMetrics) : RateMetric :=
  match control with
  | securityPolicy => metrics.securityPolicyCoverage
  | secretScanning => metrics.secretScanningCoverage
  | dependabot => metrics.dependabotSecurityUpdatesCoverage
  | codeowners => metrics.codeownersCoverage
  | branchProtection => metrics.branchProtectionCoverage

def inPopulation (control : CoverageControl) (repo : RepositoryEvidence) : Bool :=
  match control with
  | securityPolicy => repo.repository.visibility = .public
  | secretScanning | dependabot | codeowners | branchProtection => !repo.repository.archived

def classify (control : CoverageControl) (repo : RepositoryEvidence) : DenominatorMembership :=
  match control with
  | securityPolicy =>
    match repo.checks.securityPolicy.status with
    | .pass => .eligible .met
    | .fail => .eligible .unmet
    | .unknown => .excluded .unknown
    | .notApplicable => .excluded .notApplicable
  | secretScanning =>
    match repo.checks.secretScanning.status with
    | .enabled => .eligible .met
    | .disabled => .eligible .unmet
    | .permissionDenied => .excluded .permissionDenied
    | .unknown => .excluded .unknown
  | dependabot =>
    match repo.checks.dependabotSecurityUpdates.status with
    | .enabled => .eligible .met
    | .paused | .disabled => .eligible .unmet
    | .unknown => .excluded .unknown
  | codeowners =>
    match repo.checks.codeowners.status with
    | .conforming | .nonConforming => .eligible .met
    | .absent => .eligible .unmet
    | .unknown => .excluded .unknown
  | branchProtection =>
    match repo.checks.branchProtection with
    | .protected .. => .eligible .met
    | .unprotected .. => .eligible .unmet
    | .unobservable _ reason _ _ =>
      .excluded <|
        match reason with
        | .permissionDenied | .permissionSuspected => .permissionDenied
        | .transient | .rateLimited | .invalid | .pending => .unknown

end CoverageControl

/-- The repositories behind the denominator of a control, in the order of the list. -/
def controlDenominatorPopulation (control : CoverageControl)
    (repositories : List RepositoryEvidence) : List (RepositoryEvidence × DenominatorMembership) :=
  (repositories.filter control.inPopulation).map fun repo => (repo, control.classify repo)

def DenominatorMembership.isEligible : DenominatorMembership → Bool
  | eligible _ => true
  | excluded _ => false

def denominatorRepoCount (population : List (RepositoryEvidence × DenominatorMembership)) : ℕ :=
  countAsU32 (population.filter fun entry => entry.2.isEligible).length

def denominatorMetCount (population : List (RepositoryEvidence × DenominatorMembership)) : ℕ :=
  countAsU32 (population.filter fun entry => entry.2 = .eligible .met).length

end GhReport.Aggregate
