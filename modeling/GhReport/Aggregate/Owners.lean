import GhReport.Aggregate.Counts

/-! # Metrics of owners

The rates of the five shared controls over the repositories of each owner named
in CODEOWNERS.
-/

namespace GhReport.Aggregate

open Domain

/-- What one control has come to so far. -/
structure ControlTally where
  pass : ℕ := 0
  fail : ℕ := 0
  excluded : ExclusionTally := {}
deriving DecidableEq

def ControlTally.record (tally : ControlTally) : ScoreCategory → ControlTally
  | .pass => { tally with pass := saturatingAdd tally.pass 1 }
  | .fail => { tally with fail := saturatingAdd tally.fail 1 }
  | .excluded reason => { tally with excluded := tally.excluded.record reason }

def ControlTally.coverageMetric (tally : ControlTally) : RateMetric :=
  Aggregate.coverageMetric tally.pass tally.fail tally.excluded

/-- The counters of `build_per_control_coverage`, three for each control. -/
structure OwnerCounters where
  sp : ControlTally := {}
  secret : ControlTally := {}
  db : ControlTally := {}
  bp : ControlTally := {}
  co : ControlTally := {}
deriving DecidableEq

def OwnerCounters.count (counters : OwnerCounters) (repo : RepositoryEvidence) :
    OwnerCounters where
  sp := counters.sp.record repo.checks.securityPolicy.scoreCategory
  secret := counters.secret.record repo.checks.secretScanning.scoreCategory
  db := counters.db.record (dependabotCategory repo.checks.dependabotSecurityUpdates.status)
  bp := counters.bp.record repo.checks.branchProtection.scoreCategory
  co :=
    match repo.checks.codeowners.scoreCategory with
    | .excluded reason => counters.co.record (.excluded reason)
    -- A file is present wherever it is, whether or not its place passes.
    | .pass | .fail =>
      if repo.checks.codeowners.status = .conforming
          ∨ repo.checks.codeowners.status = .nonConforming then
        counters.co.record .pass
      else counters.co.record .fail

structure OwnerControlCoverage where
  perControlCoverage : KeyMap RateMetric
  scoreExclusionCounts : List ScoreExclusionCount

def buildPerControlCoverage (repos : List RepositoryEvidence) : OwnerControlCoverage :=
  let counters := repos.foldl OwnerCounters.count {}
  { perControlCoverage := (∅ : KeyMap RateMetric)
      |>.insert "security_policy" counters.sp.coverageMetric
      |>.insert "secret_scanning" counters.secret.coverageMetric
      |>.insert "dependabot_security_updates" counters.db.coverageMetric
      |>.insert "branch_protection" counters.bp.coverageMetric
      |>.insert "codeowners" counters.co.coverageMetric
    scoreExclusionCounts := []
      |> counters.sp.excluded.pushCounts .securityPolicy
      |> counters.secret.excluded.pushCounts .secretScanning
      |> counters.db.excluded.pushCounts .dependabot
      |> counters.bp.excluded.pushCounts .branchProtection
      |> counters.co.excluded.pushCounts .codeowners }

/-! ## Owners -/

inductive OwnerType where
  | team | ambiguousTeamShaped | user
deriving DecidableEq

structure OwnerMetrics where
  owner : String
  displayName : String
  ownerType : OwnerType
  totalRepos : ℕ
  perControlCoverage : KeyMap RateMetric
  scoreExclusionCounts : List ScoreExclusionCount
  inOrg : Option Bool

def ownerType (canonical : String) : OwnerType :=
  match teamSlugFromCanonicalOwner canonical with
  | some _ => .team
  | none => if canonical.toList.contains '/' then .ambiguousTeamShaped else .user

def typeRank : OwnerType → ℕ
  | .team => 0
  | .ambiguousTeamShaped => 1
  | .user => 2

def ownerMetrics (canonical displayName : String) (repos : List RepositoryEvidence) :
    OwnerMetrics :=
  let coverage := buildPerControlCoverage repos
  { owner := canonical
    displayName := displayName
    ownerType := ownerType canonical
    totalRepos := countAsU32 repos.length
    perControlCoverage := coverage.perControlCoverage
    scoreExclusionCounts := coverage.scoreExclusionCounts
    inOrg := none }

/-- The metrics of every owner: teams first, then the ambiguous, then users, each by name. -/
def buildOwnerMetrics (toLowercase : String → String) (repositories : List RepositoryEvidence) :
    List OwnerMetrics :=
  let result := (buildOwnerRepoMap toLowercase repositories).toList.map fun entry =>
    ownerMetrics entry.1 entry.2.1 entry.2.2
  result.insertionSort fun a b =>
    typeRank a.ownerType < typeRank b.ownerType
      ∨ typeRank a.ownerType = typeRank b.ownerType ∧ a.owner ≤ b.owner

/-- Each owner of the map has its metrics, and nobody else. -/
theorem mem_buildOwnerMetrics {toLowercase : String → String}
    {repositories : List RepositoryEvidence} {m : OwnerMetrics} :
    m ∈ buildOwnerMetrics toLowercase repositories ↔
      ∃ (owner : String) (displayName : String) (repos : List RepositoryEvidence),
        (buildOwnerRepoMap toLowercase repositories)[owner]? = some (displayName, repos) ∧
          m = ownerMetrics owner displayName repos := by
  unfold buildOwnerMetrics
  rw [List.mem_insertionSort, List.mem_map]
  constructor
  · rintro ⟨⟨owner, displayName, repos⟩, hentry, rfl⟩
    exact ⟨owner, displayName, repos, Std.ExtTreeMap.mem_toList_iff_getElem?_eq_some.mp hentry, rfl⟩
  · rintro ⟨owner, displayName, repos, hentry, rfl⟩
    exact ⟨⟨owner, displayName, repos⟩,
      Std.ExtTreeMap.mem_toList_iff_getElem?_eq_some.mpr hentry, rfl⟩

end GhReport.Aggregate
