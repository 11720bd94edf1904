import GhReport.Library.GeometricMean
import GhReport.Report.AlertFree
import Mathlib.Algebra.Order.Round
import Mathlib.Tactic.Linarith
import Mathlib.Tactic.Positivity

/-! # The score of the organisation

The score is the geometric mean of the rates that there are, with a rate of zero
counted as a tenth. A rate that rises keeps the score from falling, unless it
rises from zero to less than a tenth.
-/

namespace GhReport.Report

open Domain Aggregate GeometricMean
open Event (Calendar)

/-! ## Scores -/

def availableRates (rates : List (Option ℚ)) : List ℚ :=
  rates.filterMap id
    |>.map (fun r => max 0 (min r 100))
    |>.map fun r => if r = 0 then 1 / 10 else r

noncomputable def computeHealthScore (rates : List (Option ℚ)) : Option ℝ :=
  let available := (availableRates rates).map fun r : ℚ => (r : ℝ)
  if available.isEmpty then none else some (round (geoMean available * 10) / 10)

/-- The mean to the power of the number of rates. It orders the scores of as many rates. -/
def scoreProduct (rates : List (Option ℚ)) : Option ℚ :=
  let available := availableRates rates
  if available.isEmpty then none else some available.prod

/-- Neither score is there, or both are and the first is not above the second. -/
def NotAbove (rates rates' : List (Option ℚ)) : Prop :=
  Option.Rel (· ≤ ·) (scoreProduct rates) (scoreProduct rates')

/-- What a rate counts as. -/
def counted (rate : ℚ) : ℚ := if max 0 (min rate 100) = 0 then 1 / 10 else max 0 (min rate 100)

theorem counted_of_nonpos {rate : ℚ} (h : rate ≤ 0) : counted rate = 1 / 10 := by
  have hclamp : max 0 (min rate 100) = 0 := max_eq_left ((min_le_left _ _).trans h)
  rw [counted, if_pos hclamp]

theorem counted_of_pos {rate : ℚ} (h : 0 < rate) : counted rate = min rate 100 := by
  have hmin : 0 < min rate 100 := lt_min h (by norm_num)
  rw [counted, max_eq_right hmin.le, if_neg hmin.ne']

theorem counted_pos (rate : ℚ) : 0 < counted rate := by
  rcases le_or_gt rate 0 with h | h
  · rw [counted_of_nonpos h]
    norm_num
  · rw [counted_of_pos h]
    exact lt_min h (by norm_num)

/-- A rate that rises counts for less only if it rises from zero to below a tenth. -/
theorem counted_le_iff {rate rate' : ℚ} (h : rate ≤ rate') :
    counted rate ≤ counted rate' ↔ ¬ (rate ≤ 0 ∧ 0 < rate' ∧ rate' < 1 / 10) := by
  rcases le_or_gt rate 0 with hzero | hpos
  · rw [counted_of_nonpos hzero]
    rcases le_or_gt rate' 0 with hzero' | hpos'
    · rw [counted_of_nonpos hzero']
      exact iff_of_true le_rfl fun hlow => hlow.2.1.not_ge hzero'
    · rw [counted_of_pos hpos', le_min_iff]
      constructor
      · rintro ⟨hle, -⟩ ⟨-, -, hlow⟩
        exact hlow.not_ge hle
      · intro hlow
        refine ⟨not_lt.mp fun hlt => hlow ⟨hzero, hpos', hlt⟩, by norm_num⟩
  · rw [counted_of_pos hpos, counted_of_pos (hpos.trans_le h)]
    exact iff_of_true (min_le_min_right _ h) fun hlow => hpos.not_ge hlow.1

theorem availableRates_eq (rates : List (Option ℚ)) :
    availableRates rates = (rates.filterMap id).map counted := List.map_map

theorem availableRates_pos {rates : List (Option ℚ)} {r : ℚ} (h : r ∈ availableRates rates) :
    0 < r := by
  rw [availableRates_eq] at h
  obtain ⟨rate, -, rfl⟩ := List.mem_map.mp h
  exact counted_pos rate

theorem prod_availableRates_pos (rates : List (Option ℚ)) : 0 < (availableRates rates).prod :=
  List.prod_pos fun _ h => availableRates_pos h

theorem availableRates_append (rates rates' : List (Option ℚ)) :
    availableRates (rates ++ rates') = availableRates rates ++ availableRates rates' := by
  simp only [availableRates_eq, List.filterMap_append, List.map_append]

@[simp] theorem availableRates_some (r : ℚ) (rates : List (Option ℚ)) :
    availableRates (some r :: rates) = counted r :: availableRates rates := rfl

/-- Of as many rates, the scores are ordered as the products. -/
theorem notAbove_iff {rates rates' : List (Option ℚ)}
    (h : (availableRates rates).length = (availableRates rates').length) :
    NotAbove rates rates' ↔ (availableRates rates).prod ≤ (availableRates rates').prod := by
  unfold NotAbove scoreProduct
  dsimp only
  cases hrates : availableRates rates with
  | nil =>
    rw [hrates] at h
    rw [List.length_eq_zero_iff.mp h.symm]
    exact iff_of_true .none le_rfl
  | cons r rest =>
    cases hrates' : availableRates rates' with
    | nil =>
      rw [hrates, hrates'] at h
      cases h
    | cons r' rest' => exact Option.rel_some_some

/-- The products order the geometric means. -/
theorem notAbove_iff_geoMean {rates rates' : List (Option ℚ)}
    (h : (availableRates rates).length = (availableRates rates').length)
    (hne : availableRates rates ≠ []) :
    NotAbove rates rates' ↔ geoMean ((availableRates rates).map fun r : ℚ => (r : ℝ)) ≤
      geoMean ((availableRates rates').map fun r : ℚ => (r : ℝ)) := by
  have hpos : ∀ rates : List (Option ℚ),
      ∀ v ∈ (availableRates rates).map fun r : ℚ => (r : ℝ), 0 < v := by
    intro rates v hv
    obtain ⟨r, hr, rfl⟩ := List.mem_map.mp hv
    exact Rat.cast_pos.mpr (availableRates_pos hr)
  have hprod : ∀ l : List ℚ, (l.map fun r : ℚ => (r : ℝ)).prod = (l.prod : ℚ) :=
    fun l => (map_list_prod (Rat.castHom ℝ) l).symm
  rw [geoMean_le_iff (by simpa using h) (by simpa using hne) (hpos rates) (hpos rates'),
    hprod, hprod, Rat.cast_le, notAbove_iff h]

/-- Rounding keeps the order of the means. -/
theorem computeHealthScore_le {rates rates' : List (Option ℚ)}
    (hlength : (availableRates rates).length = (availableRates rates').length)
    (h : NotAbove rates rates') :
    Option.Rel (· ≤ ·) (computeHealthScore rates) (computeHealthScore rates') := by
  unfold computeHealthScore
  by_cases hne : availableRates rates = []
  · have hne' : availableRates rates' = [] := by
      rw [hne] at hlength
      exact List.length_eq_zero_iff.mp hlength.symm
    rw [hne, hne']
    exact .none
  · have hne' : availableRates rates' ≠ [] := by
      intro hnil
      rw [hnil] at hlength
      exact hne (List.length_eq_zero_iff.mp hlength)
    have hmean := (notAbove_iff_geoMean hlength hne).mp h
    simp only [List.isEmpty_iff, List.map_eq_nil_iff, hne, hne', if_false]
    refine .some (div_le_div_of_nonneg_right (Int.cast_le.mpr ?_) (by norm_num))
    rw [round_eq, round_eq]
    exact Int.floor_le_floor
      (add_le_add_left (mul_le_mul_of_nonneg_right hmean (by norm_num)) _)

/-! ## Changes of rates -/

/-- A control that was at zero is above it, but below what zero counts as. -/
def BelowFloor (rate rate' : Option ℚ) : Prop :=
  ∃ r r', rate = some r ∧ rate' = some r' ∧ r ≤ 0 ∧ 0 < r' ∧ r' < 1 / 10

section Changes

variable {rates rates' : List (Option ℚ)}

/-- Controls that stay available have as many rates. -/
theorem length_availableRates {R : ℚ → ℚ → Prop} (h : List.Forall₂ (Option.Rel R) rates rates') :
    (availableRates rates).length = (availableRates rates').length := by
  induction h with
  | nil => rfl
  | cons hhead _ ih =>
    cases hhead with
    | none => exact ih
    | some => exact congrArg (· + 1) ih

theorem notAbove_of_forall₂ (h : List.Forall₂ (Option.Rel fun r r' => counted r ≤ counted r')
    rates rates') : NotAbove rates rates' := by
  rw [notAbove_iff (length_availableRates h)]
  induction h with
  | nil => exact le_rfl
  | cons hhead _ ih =>
    cases hhead with
    | none => exact ih
    | @some r r' hcounted =>
      rw [availableRates_some, availableRates_some, List.prod_cons, List.prod_cons]
      exact mul_le_mul hcounted ih (prod_availableRates_pos _).le (counted_pos _).le

/-- The rate of one control. -/
theorem notAbove_one_iff (before after : List (Option ℚ)) {rate rate' : Option ℚ}
    (h : Option.Rel (· ≤ ·) rate rate') :
    NotAbove (before ++ rate :: after) (before ++ rate' :: after) ↔ ¬ BelowFloor rate rate' := by
  cases h with
  | none =>
    refine iff_of_true ?_ nofun
    refine notAbove_of_forall₂ (List.forall₂_same.mpr fun rate _ => ?_)
    cases rate with
    | none => exact .none
    | some => exact .some le_rfl
  | @some r r' hle =>
    have hfloor : BelowFloor (some r) (some r') ↔ r ≤ 0 ∧ 0 < r' ∧ r' < 1 / 10 := by
      constructor
      · rintro ⟨_, _, ⟨⟩, ⟨⟩, hlow⟩
        exact hlow
      · exact fun hlow => ⟨r, r', rfl, rfl, hlow⟩
    rw [hfloor, ← counted_le_iff hle, notAbove_iff (by simp [availableRates_append])]
    simp only [availableRates_append, availableRates_some, List.prod_append, List.prod_cons]
    rw [mul_le_mul_iff_right₀ (prod_availableRates_pos before),
      mul_le_mul_iff_left₀ (prod_availableRates_pos after)]

/-- Some of the controls have their new rate already. -/
def Partly (rates between rates' : List (Option ℚ)) : Prop :=
  List.Forall₂ (fun rate pair => rate = pair.1 ∨ rate = pair.2) between (rates.zip rates')

theorem partly_start (h : List.Forall₂ (Option.Rel (· ≤ ·)) rates rates') :
    Partly rates rates rates' := by
  induction h with
  | nil => exact .nil
  | cons _ _ ih => exact .cons (.inl rfl) ih

theorem partly_finish (h : List.Forall₂ (Option.Rel (· ≤ ·)) rates rates') :
    Partly rates rates' rates' := by
  induction h with
  | nil => exact .nil
  | cons _ _ ih => exact .cons (.inr rfl) ih

theorem counted_of_partly {between : List (Option ℚ)}
    (h : List.Forall₂ (Option.Rel (· ≤ ·)) rates rates')
    (hfloor : List.Forall₂ (fun rate rate' => ¬ BelowFloor rate rate') rates rates')
    (hpartly : Partly rates between rates') :
    List.Forall₂ (Option.Rel fun r r' => counted r ≤ counted r') rates between := by
  induction h generalizing between with
  | nil =>
    cases hpartly
    exact .nil
  | @cons rate rate' _ _ hle _ ih =>
    obtain ⟨hhead, htail⟩ := List.forall₂_cons.mp hfloor
    cases hpartly with
    | cons hrate hpartly =>
      refine .cons ?_ (ih htail hpartly)
      cases hle with
      | none =>
        rcases hrate with rfl | rfl <;> exact .none
      | @some r r' hle =>
        rcases hrate with rfl | rfl
        · exact .some le_rfl
        · exact .some ((counted_le_iff hle).mpr fun hlow => hhead ⟨r, r', rfl, rfl, hlow⟩)

/-- No part of the change lowers the score exactly when no control is left below the floor. -/
theorem notAbove_partly_iff (h : List.Forall₂ (Option.Rel (· ≤ ·)) rates rates') :
    (∀ between, Partly rates between rates' → NotAbove rates between) ↔
      List.Forall₂ (fun rate rate' => ¬ BelowFloor rate rate') rates rates' := by
  constructor
  · intro hlaw
    -- The controls before the one in question keep their old rates.
    have hkept : ∀ before : List (Option ℚ),
        (∀ between, Partly rates between rates' → NotAbove (before ++ rates) (before ++ between)) →
        List.Forall₂ (fun rate rate' => ¬ BelowFloor rate rate') rates rates' := by
      clear hlaw
      induction h with
      | nil => exact fun _ _ => .nil
      | @cons rate rate' rest rest' hle hrest ih =>
        intro before hlaw
        refine .cons ?_ (ih (before ++ [rate]) fun between hpartly => ?_)
        · exact (notAbove_one_iff before rest hle).mp
            (hlaw (rate' :: rest) (.cons (.inr rfl) (partly_start hrest)))
        · rw [List.append_assoc, List.append_assoc]
          exact hlaw (rate :: between) (.cons (.inl rfl) hpartly)
    exact hkept [] hlaw
  · intro hfloor between hpartly
    exact notAbove_of_forall₂ (counted_of_partly h hfloor hpartly)

end Changes

/-! ## Retired repositories -/

/-- The share of stale repositories that are archived. -/
structure ArchivalCoverage where
  archived : ℕ
  staleActiveRepos : ℕ
  staleRate : Option ℚ
  staleRateFormatted : String

section Retirement

variable (D : Rendering) (C : Calendar)

def staleActive (evidence : Evidence) : List RepositoryEvidence :=
  evidence.repositories.filter fun r =>
    !r.repository.archived && RepositoryEvidence.isStale C evidence.runTimestamp r

def computeArchivalCoverage (evidence : Evidence) : ArchivalCoverage :=
  let archived := evidence.archivedRepos
  let staleActiveRepos := countAsU32 (staleActive C evidence).length
  let staleDenominator := saturatingAdd archived staleActiveRepos
  ⟨archived, staleActiveRepos, rateOf archived staleDenominator,
    formatted D archived staleDenominator⟩

/-- The rates behind the score, one for each control. -/
def healthRates (metrics : AggregatedMetrics) (staleRate alertFreeRate : Option ℚ) :
    List (Option ℚ) :=
  [metrics.securityPolicyCoverage.rate D.inTenths, metrics.secretScanningCoverage.rate D.inTenths,
    metrics.dependabotSecurityUpdatesCoverage.rate D.inTenths,
    metrics.branchProtectionCoverage.rate D.inTenths, metrics.codeownersCoverage.rate D.inTenths,
    staleRate, alertFreeRate]

def orgGovernanceRates (evidence : Evidence) : List (Option ℚ) :=
  healthRates D evidence.metrics (computeArchivalCoverage D C evidence).staleRate
    (computeAlertFreeCoverage D evidence).rate

/-- One stale repository is archived, and every other control keeps its rate. -/
structure Retired (before after : Evidence) : Prop where
  archived : after.archivedRepos = before.archivedRepos + 1
  counted : after.archivedRepos ≤ u32Max
  stale : (staleActive C after).length + 1 = (staleActive C before).length
  coverage : ∀ control : CoverageControl,
    (control.coverage after.metrics).rate D.inTenths =
      (control.coverage before.metrics).rate D.inTenths
  alertFree :
    (computeAlertFreeCoverage D after).rate = (computeAlertFreeCoverage D before).rate

variable {D C} {before after : Evidence}

/-- The repository stays in the denominator. -/
theorem Retired.denominator_eq (h : Retired D C before after) :
    saturatingAdd after.archivedRepos (countAsU32 (staleActive C after).length) =
      saturatingAdd before.archivedRepos (countAsU32 (staleActive C before).length) := by
  have harchived := h.archived
  have hcounted := h.counted
  have hstale := h.stale
  unfold saturatingAdd Tally.add countAsU32 u32Max at *
  omega

/-- The rates before and after, over the one denominator. -/
theorem Retired.staleRates (h : Retired D C before after) : ∃ d : ℕ, 0 < d ∧
    d = saturatingAdd before.archivedRepos (countAsU32 (staleActive C before).length) ∧
    (computeArchivalCoverage D C before).staleRate =
      some ((before.archivedRepos : ℚ) / d * 100) ∧
    (computeArchivalCoverage D C after).staleRate =
      some (((before.archivedRepos : ℚ) + 1) / d * 100) := by
  have hpos :
      0 < saturatingAdd before.archivedRepos (countAsU32 (staleActive C before).length) := by
    have hstale := h.stale
    unfold saturatingAdd Tally.add countAsU32 u32Max
    omega
  refine ⟨_, hpos, rfl, if_pos hpos, ?_⟩
  dsimp only [computeArchivalCoverage]
  rw [h.denominator_eq, rateOf, if_pos hpos, h.archived, Nat.cast_succ]

/-- A retirement leaves the rate below the floor when it is the first of more than a thousand. -/
theorem Retired.belowFloor_iff (h : Retired D C before after) :
    BelowFloor (computeArchivalCoverage D C before).staleRate
        (computeArchivalCoverage D C after).staleRate ↔
      before.archivedRepos = 0 ∧ 1000 < (staleActive C before).length := by
  obtain ⟨d, hpos, hd, hbefore, hafter⟩ := h.staleRates
  have hd' : (0 : ℚ) < d := Nat.cast_pos.mpr hpos
  have hlength : before.archivedRepos = 0 → (1000 < d ↔ 1000 < (staleActive C before).length) := by
    intro hzero
    unfold saturatingAdd Tally.add countAsU32 u32Max at hd
    omega
  rw [hbefore, hafter]
  constructor
  · rintro ⟨_, _, ⟨⟩, ⟨⟩, hzero, -, hlow⟩
    have harchived : before.archivedRepos = 0 := by
      by_contra hne
      have hrate : (0 : ℚ) < before.archivedRepos / d * 100 :=
        mul_pos (div_pos (Nat.cast_pos.mpr (Nat.pos_of_ne_zero hne)) hd') (by norm_num)
      exact hrate.not_ge hzero
    refine ⟨harchived, (hlength harchived).mp ?_⟩
    rw [harchived, Nat.cast_zero, zero_add, div_mul_eq_mul_div, div_lt_iff₀ hd'] at hlow
    have hthousand : (1000 : ℚ) < d := by linarith
    exact_mod_cast hthousand
  · rintro ⟨harchived, hstale⟩
    have hthousand : (1000 : ℚ) < d := by exact_mod_cast (hlength harchived).mpr hstale
    rw [harchived, Nat.cast_zero, zero_div, zero_mul, zero_add]
    refine ⟨_, _, rfl, rfl, le_rfl, by positivity, ?_⟩
    rw [div_mul_eq_mul_div, div_lt_iff₀ hd']
    linarith

theorem Retired.staleRate_le (h : Retired D C before after) :
    Option.Rel (· ≤ ·) (computeArchivalCoverage D C before).staleRate
      (computeArchivalCoverage D C after).staleRate := by
  obtain ⟨d, -, -, hbefore, hafter⟩ := h.staleRates
  rw [hbefore, hafter]
  refine .some (mul_le_mul_of_nonneg_right ?_ (by norm_num))
  exact div_le_div_of_nonneg_right (le_add_of_nonneg_right zero_le_one) (Nat.cast_nonneg d)

theorem Retired.notAbove_iff (h : Retired D C before after) :
    NotAbove (orgGovernanceRates D C before) (orgGovernanceRates D C after) ↔
      ¬ (before.archivedRepos = 0 ∧ 1000 < (staleActive C before).length) := by
  have hcoverage := h.coverage
  have hpolicy := hcoverage .securityPolicy
  have hsecret := hcoverage .secretScanning
  have hdependabot := hcoverage .dependabot
  have hprotection := hcoverage .branchProtection
  have howners := hcoverage .codeowners
  dsimp only [CoverageControl.coverage] at hpolicy hsecret hdependabot hprotection howners
  rw [← h.belowFloor_iff, ← notAbove_one_iff
    [before.metrics.securityPolicyCoverage.rate D.inTenths,
      before.metrics.secretScanningCoverage.rate D.inTenths,
      before.metrics.dependabotSecurityUpdatesCoverage.rate D.inTenths,
      before.metrics.branchProtectionCoverage.rate D.inTenths,
      before.metrics.codeownersCoverage.rate D.inTenths]
    [(computeAlertFreeCoverage D before).rate] h.staleRate_le]
  unfold orgGovernanceRates healthRates
  rw [hpolicy, hsecret, hdependabot, hprotection, howners, h.alertFree]
  rfl

variable (D C) in
/--
A retirement lowers the score exactly when it is the first of more than a thousand. In general,
rates that rise do not lower the score unless one is left below the floor, and then the rise of
that one alone does.
-/
theorem healthScore_notLowered_iff :
    (∀ before after, Retired D C before after →
      (NotAbove (orgGovernanceRates D C before) (orgGovernanceRates D C after) ↔
        ¬ (before.archivedRepos = 0 ∧ 1000 < (staleActive C before).length))) ∧
    ∀ rates rates' : List (Option ℚ), List.Forall₂ (Option.Rel (· ≤ ·)) rates rates' →
      (List.Forall₂ (fun rate rate' => ¬ BelowFloor rate rate') rates rates' →
        NotAbove rates rates') ∧
      ((∀ between, Partly rates between rates' → NotAbove rates between) ↔
        List.Forall₂ (fun rate rate' => ¬ BelowFloor rate rate') rates rates') := by
  refine ⟨fun before after h => h.notAbove_iff, fun rates rates' h => ⟨fun hfloor => ?_, ?_⟩⟩
  · exact (notAbove_partly_iff h).mpr hfloor rates' (partly_finish h)
  · exact notAbove_partly_iff h

end Retirement

/-! ## The first of many retirements -/

section Sample

open Collector

/-- A calendar that knows two days. -/
def twoDays : Calendar where
  parseIso8601 text :=
    if text = "2020-01-01T00:00:00Z" then some 1577836800000000000
    else if text = "2025-01-01T00:00:00Z" then some 1735689600000000000
    else none
  fromNanosecond _ := none

/-- A repository that no one has touched since 2020, with every control in place. -/
def untouched (archived : Bool) : RepositoryEvidence where
  repository :=
    { (cleanRepository ["@Org/Team"]).repository with
      archived := archived, updatedAt := some ⟨"2020-01-01T00:00:00Z", by decide⟩ }
  checks :=
    { (cleanRepository ["@Org/Team"]).checks with
      securityPolicy := .enabledBySetting ""
      dependabotSecurityUpdates := ⟨.enabled, none, ""⟩ }
  lastCommit := none
  repoDetailsNotModified := false

/-- An organisation of such repositories. -/
def agingOrg (archived active : ℕ) : Evidence :=
  evidenceOf asciiLowercase "org" "2025-01-01T00:00:00Z" archived
    (List.replicate archived (untouched true) ++ List.replicate active (untouched false))

theorem staleActive_agingOrg (archived active : ℕ) :
    staleActive twoDays (agingOrg archived active) = List.replicate active (untouched false) := by
  have harchived : (!(untouched true).repository.archived &&
      RepositoryEvidence.isStale twoDays "2025-01-01T00:00:00Z" (untouched true)) = false := by
    decide
  have hactive : (!(untouched false).repository.archived &&
      RepositoryEvidence.isStale twoDays "2025-01-01T00:00:00Z" (untouched false)) = true := by
    decide
  unfold staleActive agingOrg
  rw [List.filter_append, List.filter_replicate, List.filter_replicate]
  simp only [harchived, hactive, if_true, Bool.false_eq_true, if_false, List.nil_append]

theorem rate_of_full {metric : RateMetric} (h : metric.numerator = metric.denominator)
    (hpos : 0 < metric.denominator) : metric.rate plainRendering.inTenths = some 100 := by
  have hne : (metric.denominator : ℚ) ≠ 0 := Nat.cast_ne_zero.mpr hpos.ne'
  have hfull : plainRendering.inTenths 1 = 100 := by decide +kernel
  rw [RateMetric.rate, if_pos hpos, h, div_self hne, hfull]

/-- A control that every repository passes is fully met. -/
theorem rate_coverage_of_pass {toLowercase : String → String}
    {repositories : List RepositoryEvidence} {control : CoverageControl}
    (hpass : ∀ repo ∈ repositories, control.statusCategory repo = .pass)
    (hne : repositories.filter control.inPopulation ≠ []) :
    (control.coverage (aggregateMetrics toLowercase repositories)).rate plainRendering.inTenths =
      some 100 := by
  have hall : ∀ category ∈ (repositories.filter control.inPopulation).map control.statusCategory,
      decide (category = .pass) = true := by
    intro category hcategory
    obtain ⟨repo, hrepo, rfl⟩ := List.mem_map.mp hcategory
    exact decide_eq_true (hpass repo (List.mem_filter.mp hrepo).1)
  have hlength : 0 < (repositories.filter control.inPopulation).length :=
    List.length_pos_of_ne_nil hne
  have hmeasured : (control.orgTally repositories).pass =
      saturatingAdd (control.orgTally repositories).pass (control.orgTally repositories).fail := by
    have hfail : (control.orgTally repositories).fail = 0 := by
      rw [CoverageControl.orgTally, ControlTally.fail_ofList, List.countP_eq_zero.mpr]
      · rfl
      · intro category hcategory
        rw [of_decide_eq_true (hall category hcategory)]
        decide
    rw [hfail, saturatingAdd, Tally.add, Nat.add_zero, CoverageControl.orgTally,
      ControlTally.pass_ofList, min_assoc, min_self]
  have hpos : 0 < (control.orgTally repositories).pass := by
    rw [CoverageControl.orgTally, ControlTally.pass_ofList, List.countP_eq_length.mpr hall,
      List.length_map]
    exact lt_min hlength (by decide)
  obtain ⟨hnumerator, hdenominator⟩ := coverage_aggregateMetrics toLowercase repositories control
  rw [ControlTally.coverageMetric_of_measured (hmeasured ▸ hpos.ne')] at hnumerator hdenominator
  exact rate_of_full (hnumerator.trans (hmeasured.trans hdenominator.symm))
    (hdenominator ▸ hmeasured ▸ hpos)

/-- Every control of such an organisation is fully met. -/
theorem rate_agingOrg (archived : ℕ) {active : ℕ} (h : 0 < active) (control : CoverageControl) :
    (control.coverage (agingOrg archived active).metrics).rate plainRendering.inTenths =
      some 100 := by
  have hmem : untouched false ∈
      List.replicate archived (untouched true) ++ List.replicate active (untouched false) :=
    List.mem_append_right _ (List.mem_replicate.mpr ⟨h.ne', rfl⟩)
  apply rate_coverage_of_pass
  · intro repo hrepo
    rcases List.mem_append.mp hrepo with hrepo | hrepo <;>
      rw [List.eq_of_mem_replicate hrepo] <;> cases control <;> rfl
  · exact List.ne_nil_of_mem (List.mem_filter.mpr ⟨hmem, by cases control <;> rfl⟩)

theorem alertFree_agingOrg {archived active : ℕ} (hactive : 0 < active)
    (h : archived + active ≤ u32Max) :
    (computeAlertFreeCoverage plainRendering (agingOrg archived active)).rate = some 100 := by
  have hrepos : activeRepos (List.replicate archived (untouched true) ++
      List.replicate active (untouched false)) = List.replicate active (untouched false) := by
    unfold activeRepos
    rw [List.filter_append, List.filter_replicate, List.filter_replicate]
    simp only [untouched, Bool.not_true, Bool.false_eq_true, if_false, Bool.not_false, if_true,
      List.nil_append]
  have hfree : alertFree (untouched false) = true := by decide
  rw [agingOrg, computeAlertFreeCoverage_eq _ _ _ _ _ _ (by simpa using h), hrepos]
  simp only [List.countP_replicate, hfree, alertMeasured_of_free hfree, if_true]
  have hne : (active : ℚ) ≠ 0 := Nat.cast_ne_zero.mpr hactive.ne'
  rw [rateOf, if_pos hactive, div_self hne, one_mul]

/-- Retiring one more repository changes nothing else. -/
theorem retired_agingOrg {archived active : ℕ} (hactive : 0 < active)
    (h : archived + 1 + active ≤ u32Max) :
    Retired plainRendering twoDays (agingOrg archived (active + 1)) (agingOrg (archived + 1) active)
    where
  archived := rfl
  counted := by
    have harchived : archived + 1 ≤ u32Max := by omega
    exact harchived
  stale := by
    rw [staleActive_agingOrg, staleActive_agingOrg, List.length_replicate, List.length_replicate]
  coverage control := by
    rw [rate_agingOrg _ hactive, rate_agingOrg _ (Nat.succ_pos _)]
  alertFree := by
    rw [alertFree_agingOrg hactive h, alertFree_agingOrg (Nat.succ_pos _) (by omega)]

/-- One of three stale repositories is archived, after one that already was. -/
theorem healthScore_notLowered_iff_few :
    NotAbove (orgGovernanceRates plainRendering twoDays (agingOrg 1 3))
        (orgGovernanceRates plainRendering twoDays (agingOrg 2 2)) ∧
      NotAbove [some 0, none] [some 50, none] := by
  obtain ⟨hretired, hrates⟩ := healthScore_notLowered_iff plainRendering twoDays
  constructor
  · rw [hretired _ _ (retired_agingOrg (by decide) (by decide))]
    rintro ⟨⟨⟩, -⟩
  · refine (hrates _ _ (.cons (.some ?_) (.cons .none .nil))).1 (.cons ?_ (.cons ?_ .nil))
    · norm_num
    · rintro ⟨_, _, ⟨⟩, ⟨⟩, -, -, hlow⟩
      norm_num at hlow
    · rintro ⟨_, _, ⟨⟩, -⟩

/-- The first of 2001 stale repositories is archived, and the score falls. -/
theorem not_retired_notAbove :
    ¬ ∀ before after, Retired plainRendering twoDays before after →
      NotAbove (orgGovernanceRates plainRendering twoDays before)
        (orgGovernanceRates plainRendering twoDays after) := by
  intro hclaim
  have hretired : Retired plainRendering twoDays (agingOrg 0 2001) (agingOrg 1 2000) :=
    retired_agingOrg (by decide) (by decide)
  refine hretired.notAbove_iff.mp (hclaim _ _ hretired) ⟨rfl, ?_⟩
  rw [staleActive_agingOrg, List.length_replicate]
  decide

end Sample

end GhReport.Report
