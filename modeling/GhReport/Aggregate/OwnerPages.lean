import GhReport.Aggregate.Categories

/-! # Owner pages

Where every repository lists one owner, the pages of the owner and of the
organisation are about the same repositories. They agree when both take each
check alike and count each repository once.
-/

namespace GhReport.Domain

namespace ScoreCategory

/-- The categories counted where a category is shown: a denominator holds passed checks also. -/
def shownWith : ScoreCategory → ScoreCategory → Bool
  | pass, category => category = pass
  | fail, category => category = pass || category = fail
  | excluded reason, category => category = excluded reason

theorem shownWith_self (category : ScoreCategory) : category.shownWith category = true := by
  cases category <;> simp [shownWith]

theorem shownWith_trans {a b c : ScoreCategory} (hab : a.shownWith b = true)
    (hbc : b.shownWith c = true) : a.shownWith c = true := by
  cases a <;> cases b <;> simp_all [shownWith]

end ScoreCategory

end GhReport.Domain

namespace GhReport.Aggregate

open Domain

/-! ## Shown counts -/

/-- What is shown of a category. -/
def shown (category : ScoreCategory) (l : List ScoreCategory) : ℕ :=
  min (l.countP category.shownWith) u32Max

theorem shown_eq_zero_iff {category : ScoreCategory} {l : List ScoreCategory} :
    shown category l = 0 ↔ ∀ other ∈ l, ¬ category.shownWith other = true := by
  rw [← List.countP_eq_zero, shown, u32Max]
  omega

/-- Where no check has passed or failed, none has passed. -/
theorem shown_pass_eq_zero {l : List ScoreCategory} (h : shown .fail l = 0) :
    shown .pass l = 0 := by
  rw [shown_eq_zero_iff] at h ⊢
  intro other hother hpass
  exact h other hother (ScoreCategory.shownWith_trans (b := .pass) rfl hpass)

/-- Repeated repositories show only where the counter is not yet full. -/
theorem shown_repeated_iff {times : RepositoryEvidence → ℕ} {repos : List RepositoryEvidence}
    (htimes : ∀ repo ∈ repos, 1 ≤ times repo) (category : RepositoryEvidence → ScoreCategory) :
    (∀ c, shown c ((Tally.repeated times repos).map category) = shown c (repos.map category)) ↔
      ∀ repo ∈ repos, times repo = 1 ∨
        u32Max ≤ repos.countP fun other => (category repo).shownWith (category other) := by
  have hshown : ∀ c, shown c ((Tally.repeated times repos).map category) =
      shown c (repos.map category) ↔
        u32Max ≤ repos.countP (c.shownWith ∘ category) ∨
          ∀ repo ∈ repos, (c.shownWith ∘ category) repo = true → times repo = 1 := by
    intro c
    unfold shown
    rw [List.countP_map, List.countP_map]
    exact Tally.min_countP_repeated_eq_iff htimes
  simp only [hshown]
  constructor
  · intro h repo hrepo
    rcases h (category repo) with hfull | honce
    · exact .inr hfull
    · exact .inl (honce repo hrepo (category repo).shownWith_self)
  · intro h c
    by_cases honce : ∀ repo ∈ repos, (c.shownWith ∘ category) repo = true → times repo = 1
    · exact .inr honce
    · push Not at honce
      obtain ⟨repo, hrepo, hwith, hne⟩ := honce
      refine .inl (((h repo hrepo).resolve_left hne).trans ?_)
      exact List.countP_mono_left fun other _ => ScoreCategory.shownWith_trans hwith

namespace ControlTally

/-- Two tallies give the same rate and the same exclusions. -/
structure Agrees (tally tally' : ControlTally) : Prop where
  numerator : tally.coverageMetric.numerator = tally'.coverageMetric.numerator
  denominator : tally.coverageMetric.denominator = tally'.coverageMetric.denominator
  excluded : tally.excluded = tally'.excluded

/-- Tallies of the same categories agree when they show as much of each. -/
theorem agrees_ofList_iff {l l' : List ScoreCategory}
    (hmem : ∀ category, category ∈ l ↔ category ∈ l') :
    (ofList l).Agrees (ofList l') ↔ ∀ category, shown category l = shown category l' := by
  have hpass : ∀ l, (ofList l).pass = shown .pass l := pass_ofList
  have hfail : ∀ l, saturatingAdd (ofList l).pass (ofList l).fail = shown .fail l :=
    saturatingAdd_ofList
  have hexcluded : ∀ l reason, (ofList l).excluded.get reason = shown (.excluded reason) l :=
    excluded_ofList
  have hzero : ∀ category, shown category l = 0 ↔ shown category l' = 0 := by
    intro category
    simp only [shown_eq_zero_iff, hmem]
  constructor
  · rintro ⟨hnumerator, hdenominator, htally⟩
    have hboth : shown .pass l = shown .pass l' ∧ shown .fail l = shown .fail l' := by
      by_cases hfloor : shown .fail l = 0
      · have hfloor' := (hzero .fail).mp hfloor
        exact ⟨(shown_pass_eq_zero hfloor).trans (shown_pass_eq_zero hfloor').symm,
          hfloor.trans hfloor'.symm⟩
      · have hfloor' := mt (hzero .fail).mpr hfloor
        rw [← hfail] at hfloor hfloor'
        rw [coverageMetric_of_measured hfloor, coverageMetric_of_measured hfloor'] at hnumerator
        rw [coverageMetric_of_measured hfloor, coverageMetric_of_measured hfloor'] at hdenominator
        rw [← hpass, ← hpass, ← hfail, ← hfail]
        exact ⟨hnumerator, hdenominator⟩
    intro category
    cases category with
    | pass => exact hboth.1
    | fail => exact hboth.2
    | excluded reason => rw [← hexcluded, ← hexcluded, htally]
  · intro hshown
    have htally : (ofList l).excluded = (ofList l').excluded := by
      apply ExclusionTally.ext_get
      intro reason
      rw [hexcluded, hexcluded, hshown]
    have hpass' : (ofList l).pass = (ofList l').pass := by rw [hpass, hpass, hshown]
    have hfail' := (hfail l).trans ((hshown .fail).trans (hfail l').symm)
    have hmetric : (ofList l).coverageMetric = (ofList l').coverageMetric := by
      unfold coverageMetric Aggregate.coverageMetric
      rw [htally, hfail', hpass']
    exact ⟨by rw [hmetric], by rw [hmetric], htally⟩

end ControlTally

/-! ## Results taken alike -/

/-- The status of every check gives the same reason as its result, where a file is parsed. -/
structure TakenAlike (repo : RepositoryEvidence) : Prop where
  securityPolicy : repo.checks.securityPolicy.status = .pass ∨
    repo.checks.securityPolicy.status = .fail
  secretScanning : ¬ (repo.checks.secretScanning.status = .unknown ∧
    otherFailure repo.checks.secretScanning.failureReason = true)

namespace CoverageControl

variable {repo : RepositoryEvidence}

theorem resultCategory_securityPolicy_ne :
    securityPolicy.resultCategory repo ≠ .excluded .unknown := by
  unfold resultCategory
  dsimp only
  cases repo.checks.securityPolicy with
  | unobservable reason => cases reason <;> simp [SecurityPolicyResult.scoreCategory,
      exclusionReason]
  | enabledBySetting | enabledByFile | absent | notApplicable =>
    simp [SecurityPolicyResult.scoreCategory, SecurityPolicyResult.status,
      SecurityPolicyStatus.scoreCategory]

theorem statusCategory_securityPolicy_eq_iff :
    securityPolicy.statusCategory repo = .excluded .unknown ↔
      ¬ (repo.checks.securityPolicy.status = .pass ∨
        repo.checks.securityPolicy.status = .fail) := by
  unfold statusCategory
  dsimp only
  cases repo.checks.securityPolicy.status <;> simp

theorem statusCategory_secretScanning_ne :
    secretScanning.statusCategory repo ≠ .excluded .other := by
  unfold statusCategory
  dsimp only
  cases repo.checks.secretScanning.status <;> simp

theorem resultCategory_secretScanning_eq_iff :
    secretScanning.resultCategory repo = .excluded .other ↔
      repo.checks.secretScanning.status = .unknown ∧
        otherFailure repo.checks.secretScanning.failureReason = true := by
  unfold resultCategory SecretScanningResult.scoreCategory
  dsimp only
  cases repo.checks.secretScanning.status <;> simp

theorem resultCategory_eq (halike : TakenAlike repo)
    (hparsed : repo.checks.codeowners.parsed.isSome = true) (control : CoverageControl) :
    control.resultCategory repo = control.statusCategory repo := by
  unfold resultCategory statusCategory
  cases control with
  | securityPolicy =>
    have hstatus := halike.securityPolicy
    dsimp only
    cases hpolicy : repo.checks.securityPolicy <;> rw [hpolicy] at hstatus <;>
      first | rfl | (rcases hstatus with h | h <;> cases h)
  | secretScanning =>
    have hreason := halike.secretScanning
    dsimp only [SecretScanningResult.scoreCategory]
    cases hstatus : repo.checks.secretScanning.status with
    | enabled | disabled | permissionDenied => rfl
    | unknown => simpa [hstatus] using hreason
  | codeowners =>
    dsimp only
    cases hresult : repo.checks.codeowners with
    | conforming | nonConforming => rfl
    | absent | unobservable =>
      rw [hresult] at hparsed
      cases hparsed
  | dependabot | branchProtection => rfl

end CoverageControl

/-! ## The pages of an owner and of the organisation -/

section Pages

variable (toLowercase : String → String) (repositories : List RepositoryEvidence) (owner : String)

/-- The metrics of the owner carry the coverages and the exclusions of the organisation. -/
def OwnerPageAgrees : Prop :=
  ∀ m ∈ buildOwnerMetrics toLowercase repositories, m.owner = owner →
    (∀ control : CoverageControl, ∃ metric, m.perControlCoverage[control.key]? = some metric ∧
      metric.numerator =
          (control.coverage (aggregateMetrics toLowercase repositories)).numerator ∧
        metric.denominator =
          (control.coverage (aggregateMetrics toLowercase repositories)).denominator) ∧
    m.scoreExclusionCounts = (aggregateMetrics toLowercase repositories).scoreExclusionCounts

/-- The repository lists the owner once, or every counter that it counts in is full. -/
def CountedOnce (repo : RepositoryEvidence) : Prop :=
  mentions toLowercase owner repo = 1 ∨ ∀ control : CoverageControl,
    u32Max ≤ repositories.countP fun other =>
      (control.statusCategory repo).shownWith (control.statusCategory other)

variable {toLowercase repositories owner}

theorem reposOf_eq (hactive : ∀ repo ∈ repositories, repo.repository.archived = false) :
    (buildOwnerRepoMap toLowercase repositories).reposOf owner =
      Tally.repeated (mentions toLowercase owner) repositories := by
  rw [reposOf_buildOwnerRepoMap, List.filter_eq_self.mpr]
  intro repo hrepo
  rw [hactive repo hrepo]
  rfl

theorem orgTally_eq
    (hpublic : ∀ repo ∈ repositories, repo.repository.archived = false ∧
      repo.repository.visibility = .public) (control : CoverageControl) :
    control.orgTally repositories = .ofList (repositories.map control.statusCategory) := by
  unfold CoverageControl.orgTally
  rw [List.filter_eq_self.mpr]
  intro repo hrepo
  obtain ⟨hactive, hvisibility⟩ := hpublic repo hrepo
  cases control <;> simp [CoverageControl.inPopulation, hactive, hvisibility]

/-- The owner has metrics, of the repositories that list it. -/
theorem exists_ownerMetrics (hactive : ∀ repo ∈ repositories, repo.repository.archived = false)
    (hlists : ∀ repo ∈ repositories, mentions toLowercase owner repo ≠ 0)
    (hne : repositories ≠ []) :
    ∃ m ∈ buildOwnerMetrics toLowercase repositories, m.owner = owner := by
  obtain ⟨repo, hrepo⟩ := List.exists_mem_of_ne_nil repositories hne
  have hmem : repo ∈ (buildOwnerRepoMap toLowercase repositories).reposOf owner := by
    rw [reposOf_eq hactive]
    exact Tally.mem_repeated.mpr ⟨hrepo, hlists repo hrepo⟩
  unfold OwnerRepoMap.reposOf at hmem
  cases hentry : (buildOwnerRepoMap toLowercase repositories)[owner]? with
  | none =>
    rw [hentry] at hmem
    cases hmem
  | some entry => exact ⟨_, mem_buildOwnerMetrics.mpr ⟨owner, entry.1, entry.2, hentry, rfl⟩, rfl⟩

theorem ownerPageAgrees_iff_tallies
    (hpublic : ∀ repo ∈ repositories, repo.repository.archived = false ∧
      repo.repository.visibility = .public)
    (hlists : ∀ repo ∈ repositories, mentions toLowercase owner repo ≠ 0) :
    OwnerPageAgrees toLowercase repositories owner ↔ ∀ control : CoverageControl,
      (ControlTally.ofList ((Tally.repeated (mentions toLowercase owner) repositories).map
        control.resultCategory)).Agrees (.ofList (repositories.map control.statusCategory)) := by
  have hactive := fun repo hrepo => (hpublic repo hrepo).1
  have hcoverage := fun control : CoverageControl => orgTally_eq hpublic control ▸
    coverage_aggregateMetrics toLowercase repositories control
  have hrows : (aggregateMetrics toLowercase repositories).scoreExclusionCounts =
      exclusionRows fun control =>
        (ControlTally.ofList (repositories.map control.statusCategory)).excluded := by
    simp only [scoreExclusionCounts_aggregateMetrics, orgTally_eq hpublic]
  have hmetrics : ∀ m ∈ buildOwnerMetrics toLowercase repositories, m.owner = owner →
      ∃ displayName, m = ownerMetrics owner displayName
        (Tally.repeated (mentions toLowercase owner) repositories) := by
    intro m hm howner
    obtain ⟨canonical, displayName, repos, hentry, rfl⟩ := mem_buildOwnerMetrics.mp hm
    have hcanonical : canonical = owner := howner
    rw [hcanonical] at hentry
    rw [hcanonical, ← reposOf_eq hactive, OwnerRepoMap.reposOf, hentry]
    exact ⟨displayName, rfl⟩
  constructor
  · intro hagrees control
    by_cases hne : repositories = []
    · subst hne
      exact ⟨rfl, rfl, rfl⟩
    · obtain ⟨m, hm, howner⟩ := exists_ownerMetrics hactive hlists hne
      obtain ⟨hcontrols, hexclusions⟩ := hagrees m hm howner
      obtain ⟨displayName, rfl⟩ := hmetrics m hm howner
      obtain ⟨metric, hmetric, hnumerator, hdenominator⟩ := hcontrols control
      cases (perControlCoverage_eq _ control).symm.trans hmetric
      rw [hrows] at hexclusions
      have htallies := exclusionRows_inj.mp ((scoreExclusionCounts_eq _).symm.trans hexclusions)
      exact ⟨hnumerator.trans (hcoverage control).1, hdenominator.trans (hcoverage control).2,
        congrFun htallies control⟩
  · intro hagrees m hm howner
    obtain ⟨displayName, rfl⟩ := hmetrics m hm howner
    constructor
    · intro control
      exact ⟨_, perControlCoverage_eq _ control,
        (hagrees control).numerator.trans (hcoverage control).1.symm,
        (hagrees control).denominator.trans (hcoverage control).2.symm⟩
    · rw [hrows]
      refine (scoreExclusionCounts_eq _).trans (exclusionRows_inj.mpr ?_)
      funext control
      exact (hagrees control).excluded

theorem isSome_parsed_of_mentions {repo : RepositoryEvidence}
    (h : mentions toLowercase owner repo ≠ 0) : repo.checks.codeowners.parsed.isSome = true := by
  unfold mentions at h
  cases hparsed : repo.checks.codeowners.parsed with
  | none =>
    rw [hparsed] at h
    exact absurd rfl h
  | some parsed => rfl

/-- Tallies that agree hold the same reasons, and some reasons one side never gives. -/
theorem takenAlike_of_agrees
    (hlists : ∀ repo ∈ repositories, mentions toLowercase owner repo ≠ 0)
    (hagrees : ∀ control : CoverageControl,
      (ControlTally.ofList ((Tally.repeated (mentions toLowercase owner) repositories).map
        control.resultCategory)).Agrees (.ofList (repositories.map control.statusCategory)))
    {repo : RepositoryEvidence} (hrepo : repo ∈ repositories) : TakenAlike repo := by
  have hreasons : ∀ (control : CoverageControl) reason,
      (∃ other ∈ repositories, control.resultCategory other = .excluded reason) ↔
        ∃ other ∈ repositories, control.statusCategory other = .excluded reason := by
    intro control reason
    have hresult := ControlTally.get_pos_iff ((Tally.repeated (mentions toLowercase owner)
      repositories).map control.resultCategory) reason
    have hstatus := ControlTally.get_pos_iff (repositories.map control.statusCategory) reason
    rw [(hagrees control).excluded, hstatus, List.mem_map, List.mem_map] at hresult
    rw [hresult]
    constructor
    · rintro ⟨other, hother, hcategory⟩
      exact ⟨other, Tally.mem_repeated.mpr ⟨hother, hlists other hother⟩, hcategory⟩
    · rintro ⟨other, hother, hcategory⟩
      exact ⟨other, (Tally.mem_repeated.mp hother).1, hcategory⟩
  constructor
  · by_contra hpolicy
    obtain ⟨other, -, hother⟩ := (hreasons .securityPolicy .unknown).mpr
      ⟨repo, hrepo, CoverageControl.statusCategory_securityPolicy_eq_iff.mpr hpolicy⟩
    exact CoverageControl.resultCategory_securityPolicy_ne hother
  · intro hsecret
    obtain ⟨other, -, hother⟩ := (hreasons .secretScanning .other).mp
      ⟨repo, hrepo, CoverageControl.resultCategory_secretScanning_eq_iff.mpr hsecret⟩
    exact CoverageControl.statusCategory_secretScanning_ne hother

/-- Of repositories taken alike, the tallies agree when no repetition shows. -/
theorem agrees_iff_countedOnce
    (hlists : ∀ repo ∈ repositories, mentions toLowercase owner repo ≠ 0)
    (halike : ∀ repo ∈ repositories, TakenAlike repo) :
    (∀ control : CoverageControl,
      (ControlTally.ofList ((Tally.repeated (mentions toLowercase owner) repositories).map
        control.resultCategory)).Agrees (.ofList (repositories.map control.statusCategory))) ↔
      ∀ repo ∈ repositories, CountedOnce toLowercase repositories owner repo := by
  have hshown : ∀ control : CoverageControl,
      (ControlTally.ofList ((Tally.repeated (mentions toLowercase owner) repositories).map
        control.resultCategory)).Agrees (.ofList (repositories.map control.statusCategory)) ↔
      ∀ repo ∈ repositories, mentions toLowercase owner repo = 1 ∨
        u32Max ≤ repositories.countP fun other =>
          (control.statusCategory repo).shownWith (control.statusCategory other) := by
    intro control
    have hsame : (Tally.repeated (mentions toLowercase owner) repositories).map
        control.resultCategory =
          (Tally.repeated (mentions toLowercase owner) repositories).map
            control.statusCategory := by
      apply List.map_congr_left
      intro repo hrepo
      obtain ⟨hrepo, hmentions⟩ := Tally.mem_repeated.mp hrepo
      exact CoverageControl.resultCategory_eq (halike repo hrepo)
        (isSome_parsed_of_mentions hmentions) control
    rw [hsame, ControlTally.agrees_ofList_iff]
    · exact shown_repeated_iff (fun repo hrepo => Nat.one_le_iff_ne_zero.mpr (hlists repo hrepo)) _
    · intro category
      simp only [List.mem_map, Tally.mem_repeated]
      constructor
      · rintro ⟨repo, ⟨hrepo, -⟩, hcategory⟩
        exact ⟨repo, hrepo, hcategory⟩
      · rintro ⟨repo, hrepo, hcategory⟩
        exact ⟨repo, ⟨hrepo, hlists repo hrepo⟩, hcategory⟩
  simp only [hshown, CountedOnce]
  constructor
  · intro h repo hrepo
    by_cases honce : mentions toLowercase owner repo = 1
    · exact .inl honce
    · exact .inr fun control => (h control repo hrepo).resolve_left honce
  · intro h control repo hrepo
    exact (h repo hrepo).imp_right fun hfull => hfull control

/--
The page of an owner whom all repositories list agrees with the page of the organisation exactly
when both take every repository alike, and count it once or have their counters full.
-/
theorem ownerPageAgrees_iff
    (hpublic : ∀ repo ∈ repositories, repo.repository.archived = false ∧
      repo.repository.visibility = .public)
    (hlists : ∀ repo ∈ repositories, mentions toLowercase owner repo ≠ 0) :
    (repositories ≠ [] → ∃ m ∈ buildOwnerMetrics toLowercase repositories, m.owner = owner) ∧
      (OwnerPageAgrees toLowercase repositories owner ↔ ∀ repo ∈ repositories,
        TakenAlike repo ∧ CountedOnce toLowercase repositories owner repo) := by
  refine ⟨exists_ownerMetrics (fun repo hrepo => (hpublic repo hrepo).1) hlists, ?_⟩
  rw [ownerPageAgrees_iff_tallies hpublic hlists]
  constructor
  · intro hagrees
    have halike : ∀ repo ∈ repositories, TakenAlike repo :=
      fun repo hrepo => takenAlike_of_agrees hlists hagrees hrepo
    have honce := (agrees_iff_countedOnce hlists halike).mp hagrees
    exact fun repo hrepo => ⟨halike repo hrepo, honce repo hrepo⟩
  · intro h
    exact (agrees_iff_countedOnce hlists fun repo hrepo => (h repo hrepo).1).mpr
      fun repo hrepo => (h repo hrepo).2

end Pages

/-! ## A policy that could not be read -/

section Sample

def ownedRepository : Repository where
  id := "1"
  nodeId := none
  name := "name"
  visibility := .public
  language := none
  defaultBranch := "main"
  archived := false
  inventoryKey := "1"
  updatedAt := none
  hasIssues := false
  pushedAt := none
  createdAt := none
  description := none
  fork := false
  isEmpty := false
  htmlUrl := none
  topics := []
  licenseSpdx := none

def ownedEvidence (securityPolicy : SecurityPolicyResult) : RepositoryEvidence where
  repository := ownedRepository
  checks :=
    { securityPolicy := securityPolicy
      secretScanning := .enabled (.metadata none (.observable .orgSummary false none)) ""
      dependabotSecurityUpdates := ⟨.enabled, none, ""⟩
      branchProtection := .unobservable "main" .permissionDenied (some 403) ""
      codeowners := .conforming (.parsed ⟨[⟨"*", ["@User"]⟩], ["@User"], 0⟩) "" }
  lastCommit := none
  repoDetailsNotModified := false

theorem ownerPageAgrees_iff_owned :
    ([ownedEvidence (.absent "")] ≠ [] →
      ∃ m ∈ buildOwnerMetrics asciiLowercase [ownedEvidence (.absent "")], m.owner = "@user") ∧
      (OwnerPageAgrees asciiLowercase [ownedEvidence (.absent "")] "@user" ↔
        ∀ repo ∈ [ownedEvidence (.absent "")], TakenAlike repo ∧
          CountedOnce asciiLowercase [ownedEvidence (.absent "")] "@user" repo) :=
  ownerPageAgrees_iff (by decide) (by decide)

/-- The organisation counts a forbidden read as unknown, the owner as a missing permission. -/
theorem not_ownerPageAgrees :
    ¬ ∀ (repositories : List RepositoryEvidence) (owner : String),
      (∀ repo ∈ repositories, repo.repository.archived = false ∧
        repo.repository.visibility = .public) →
      (∀ repo ∈ repositories, mentions asciiLowercase owner repo ≠ 0) →
      OwnerPageAgrees asciiLowercase repositories owner := by
  intro hclaim
  have hpublic : ∀ repo ∈ [ownedEvidence (.unobservable .permissionDenied "")],
      repo.repository.archived = false ∧ repo.repository.visibility = .public := by decide
  have hlists : ∀ repo ∈ [ownedEvidence (.unobservable .permissionDenied "")],
      mentions asciiLowercase "@user" repo ≠ 0 := by decide
  have hagrees := (ownerPageAgrees_iff_tallies hpublic hlists).mp
    (hclaim _ "@user" hpublic hlists)
  have halike := takenAlike_of_agrees hlists hagrees (List.mem_singleton.mpr rfl)
  rcases halike.securityPolicy with hpass | hfail
  · cases hpass
  · cases hfail

end Sample

end GhReport.Aggregate
