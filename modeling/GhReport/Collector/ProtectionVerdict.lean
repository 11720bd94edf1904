import GhReport.Collector.BranchProtection

/-! # The branch protection verdict

A branch is protected when both endpoints gave definitive answers and each signal
is blocked somewhere. Rulesets count as a set, and only those that apply; a
ruleset whose enforcement cannot be read counts as an active one.
-/

namespace GhReport.Collector.BranchProtection

open Domain GitHub
open Event (IndeterminateReason HistoryProtectionGap)

/-! ## Definitive answers -/

/-- A payload of the expected shape, or a confirmed absence. -/
def Definitive (endpoint : ProtectionEndpoint) (outcome : ApiOutcome) (access : AdminAccess) :
    Prop :=
  match outcome with
  | .success _ data _ =>
    match endpoint with
    | .rulesets => ∃ rulesets, data = some (.array rulesets)
    | .legacy => ∃ entries, data = some (.object entries)
  | .failure statusCode _ _ => statusCode = some 404 ∧ access = .admin

theorem parsePayload_eq_none_iff (endpoint : ProtectionEndpoint) (data : Option Json)
    (defaultBranch : String) :
    endpoint.parsePayload data defaultBranch = none ↔
      match endpoint with
      | .rulesets => ¬ ∃ rulesets, data = some (.array rulesets)
      | .legacy => ¬ ∃ entries, data = some (.object entries) := by
  unfold ProtectionEndpoint.parsePayload
  cases endpoint with
  | rulesets =>
    cases data with
    | none => simp
    | some data => cases data <;> simp [Json.asArray]
  | legacy =>
    cases data with
    | none => simp
    | some data => cases data <;> simp [Json.isObject]

variable {endpoint : ProtectionEndpoint} {outcome : ApiOutcome} {defaultBranch : String}
  {access : AdminAccess}

/-- What an endpoint is classified as. -/
theorem classifyEndpoint_cases (endpoint : ProtectionEndpoint) (outcome : ApiOutcome)
    (defaultBranch : String) (access : AdminAccess) :
    (∃ signals, classifyEndpoint outcome endpoint defaultBranch access = .observed signals ∧
        endpoint.parsePayload outcome.data defaultBranch = some signals ∧
        Definitive endpoint outcome access) ∨
      (∃ httpStatus, classifyEndpoint outcome endpoint defaultBranch access =
          .confirmedAbsent httpStatus ∧ outcome.data = none ∧
        Definitive endpoint outcome access) ∨
      ∃ failure, classifyEndpoint outcome endpoint defaultBranch access =
          .indeterminate failure ∧ ¬ Definitive endpoint outcome access := by
  cases outcome with
  | success statusCode data truncated =>
    unfold classifyEndpoint
    dsimp only
    cases hparse : endpoint.parsePayload data defaultBranch with
    | none =>
      refine .inr (.inr ⟨_, rfl, ?_⟩)
      have hshape := (parsePayload_eq_none_iff ..).mp hparse
      cases endpoint <;> exact hshape
    | some signals =>
      refine .inl ⟨signals, rfl, hparse, ?_⟩
      by_contra hnot
      have hnone : endpoint.parsePayload data defaultBranch = none := by
        rw [parsePayload_eq_none_iff]
        cases endpoint <;> exact hnot
      rw [hparse] at hnone
      cases hnone
  | failure statusCode error retryable =>
    unfold classifyEndpoint
    dsimp only
    by_cases h404 : statusCode = some 404
    · subst h404
      cases access with
      | admin => exact .inr (.inl ⟨_, rfl, rfl, rfl, rfl⟩)
      | notAdmin => exact .inr (.inr ⟨_, rfl, nofun⟩)
      | unknown => exact .inr (.inr ⟨_, rfl, nofun⟩)
    · have hnot : ¬ Definitive endpoint (.failure statusCode error retryable) access :=
        fun h => h404 h.1
      refine .inr (.inr ?_)
      rw [if_neg h404]
      split
      · exact ⟨_, rfl, hnot⟩
      · split
        · exact ⟨_, rfl, hnot⟩
        · split
          · exact ⟨_, rfl, hnot⟩
          · exact ⟨_, rfl, hnot⟩

theorem failure?_eq_none_iff :
    (classifyEndpoint outcome endpoint defaultBranch access).failure? = none ↔
      Definitive endpoint outcome access := by
  rcases classifyEndpoint_cases endpoint outcome defaultBranch access with
    ⟨signals, h, -, hdef⟩ | ⟨httpStatus, h, -, hdef⟩ | ⟨failure, h, hdef⟩
  · rw [h]
    exact ⟨fun _ => hdef, fun _ => rfl⟩
  · rw [h]
    exact ⟨fun _ => hdef, fun _ => rfl⟩
  · rw [h]
    exact ⟨nofun, fun h => absurd h hdef⟩

/-- The signals of an endpoint are those of its payload, if it has one. -/
theorem signals_classifyEndpoint (hdef : Definitive endpoint outcome access) :
    (classifyEndpoint outcome endpoint defaultBranch access).signals =
      (endpoint.parsePayload outcome.data defaultBranch).getD [] := by
  rcases classifyEndpoint_cases endpoint outcome defaultBranch access with
    ⟨signals, h, hparse, -⟩ | ⟨httpStatus, h, hdata, -⟩ | ⟨failure, -, hnot⟩
  · rw [h, hparse]
    rfl
  · rw [h, hdata]
    cases endpoint <;> rfl
  · exact absurd hdef hnot

/-! ## Signals -/

inductive Signal where
  | forcePush | deletion
deriving DecidableEq

def Signal.of : Signal → HistorySignals → Option Bool
  | forcePush => HistorySignals.forcePushBlocked
  | deletion => HistorySignals.deletionBlocked

def blockedIn (signals : List HistorySignals) (signal : Signal) : Bool :=
  signals.any fun s => signal.of s = some true

theorem getD_mergeOptionalBlockingSignal (signals : List HistorySignals) (signal : Signal) :
    (mergeOptionalBlockingSignal signals signal.of).getD false = blockedIn signals signal := by
  unfold mergeOptionalBlockingSignal
  change _ = signals.any _
  cases h : signals.any fun s => signal.of s = some true with
  | true => rfl
  | false =>
    rw [if_neg Bool.false_ne_true]
    split <;> rfl

/-- The verdict on observed signals. -/
def verdictOf (signals : List HistorySignals) (defaultBranch timestamp : String) :
    BranchProtectionResult :=
  fromHistorySignals defaultBranch (some (blockedIn signals .forcePush))
    (some (blockedIn signals .deletion)) timestamp

theorem verdictOf_protected_iff (signals : List HistorySignals) (defaultBranch timestamp : String) :
    verdictOf signals defaultBranch timestamp = .protected defaultBranch timestamp ↔
      ∀ signal, blockedIn signals signal = true := by
  unfold verdictOf fromHistorySignals
  constructor
  · intro h signal
    cases hforce : blockedIn signals .forcePush with
    | true =>
      cases hdeletion : blockedIn signals .deletion with
      | true => cases signal <;> assumption
      | false => simp [hforce, hdeletion] at h
    | false => cases hdeletion : blockedIn signals .deletion <;> simp [hforce, hdeletion] at h
  · intro h
    simp [h]

/-- Signals that block as much get the same verdict, and others another one. -/
theorem verdictOf_eq_iff (signals signals' : List HistorySignals)
    (defaultBranch timestamp : String) :
    verdictOf signals defaultBranch timestamp = verdictOf signals' defaultBranch timestamp ↔
      ∀ signal, blockedIn signals signal = blockedIn signals' signal := by
  unfold verdictOf fromHistorySignals
  constructor
  · intro h signal
    cases hf : blockedIn signals .forcePush <;> cases hd : blockedIn signals .deletion <;>
      cases hf' : blockedIn signals' .forcePush <;> cases hd' : blockedIn signals' .deletion <;>
      simp [hf, hd, hf', hd'] at h <;> cases signal <;> simp [hf, hd, hf', hd']
  · intro h
    rw [h, h]

theorem buildProtectionResult_merge {signals : List HistorySignals} (hne : signals ≠ [])
    (defaultBranch timestamp : String) :
    ∃ merged, HistorySignals.merge signals = some merged ∧
      buildProtectionResult (.complete merged) defaultBranch timestamp =
        verdictOf signals defaultBranch timestamp := by
  have hempty : signals.isEmpty = false := by simpa using hne
  refine ⟨_, by rw [HistorySignals.merge, hempty, if_neg Bool.false_ne_true], ?_⟩
  have hforce := getD_mergeOptionalBlockingSignal signals .forcePush
  have hdeletion := getD_mergeOptionalBlockingSignal signals .deletion
  unfold buildProtectionResult verdictOf fromHistorySignals
  dsimp only [Signal.of] at hforce hdeletion ⊢
  rw [hforce, hdeletion]
  rfl

/-! ## Indeterminate endpoints -/

theorem firstOfLeastPrecedence_eq_none_iff (failures : List EndpointFailure) :
    firstOfLeastPrecedence failures = none ↔ failures = [] := by
  cases failures with
  | nil => simp [firstOfLeastPrecedence]
  | cons failure rest =>
    simp only [firstOfLeastPrecedence, reduceCtorEq, iff_false]
    split
    · split <;> nofun
    · nofun

theorem firstOfLeastPrecedence_least {failures : List EndpointFailure} {failure : EndpointFailure}
    (h : firstOfLeastPrecedence failures = some failure) :
    failure ∈ failures ∧ ∀ other ∈ failures, failure.precedence ≤ other.precedence := by
  induction failures generalizing failure with
  | nil => cases h
  | cons first rest ih =>
    rw [firstOfLeastPrecedence] at h
    cases hrest : firstOfLeastPrecedence rest with
    | none =>
      rw [hrest] at h
      cases h
      obtain rfl := (firstOfLeastPrecedence_eq_none_iff rest).mp hrest
      simp
    | some other =>
      obtain ⟨hmem, hle⟩ := ih hrest
      rw [hrest] at h
      dsimp only at h
      split at h
      · next hlt =>
        cases h
        refine ⟨List.mem_cons_of_mem _ hmem, fun f hf => ?_⟩
        rcases List.mem_cons.mp hf with rfl | hf
        · exact hlt.le
        · exact hle f hf
      · next hnot =>
        cases h
        refine ⟨List.mem_cons_self .., fun f hf => ?_⟩
        rcases List.mem_cons.mp hf with rfl | hf
        · exact le_rfl
        · exact (not_lt.mp hnot).trans (hle f hf)

section Evaluation

variable {rulesetsResult legacyResult : ApiOutcome}

/-- The failures of the endpoints that gave no definitive answer. -/
def endpointFailures (rulesetsResult legacyResult : ApiOutcome) (defaultBranch : String)
    (access : AdminAccess) : List EndpointFailure :=
  [classifyEndpoint rulesetsResult .rulesets defaultBranch access,
    classifyEndpoint legacyResult .legacy defaultBranch access].filterMap EndpointEvidence.failure?

theorem endpointFailures_eq_nil_iff :
    endpointFailures rulesetsResult legacyResult defaultBranch access = [] ↔
      Definitive .rulesets rulesetsResult access ∧ Definitive .legacy legacyResult access := by
  rw [endpointFailures, List.filterMap_eq_nil_iff, List.forall_mem_cons, List.forall_mem_cons,
    failure?_eq_none_iff, failure?_eq_none_iff]
  simp

/-- One of the failures with the least precedence is reported. -/
theorem evaluateOutcomes_indeterminate
    (h : endpointFailures rulesetsResult legacyResult defaultBranch access ≠ [])
    (runTimestamp : String) :
    ∃ failure ∈ endpointFailures rulesetsResult legacyResult defaultBranch access,
      evaluateOutcomes rulesetsResult legacyResult defaultBranch access runTimestamp =
        .unobservable defaultBranch failure.reason failure.httpStatus runTimestamp ∧
      ∀ other ∈ endpointFailures rulesetsResult legacyResult defaultBranch access,
        failure.precedence ≤ other.precedence := by
  cases hfirst : firstOfLeastPrecedence
      (endpointFailures rulesetsResult legacyResult defaultBranch access) with
  | none => exact absurd ((firstOfLeastPrecedence_eq_none_iff _).mp hfirst) h
  | some failure =>
    obtain ⟨hmem, hle⟩ := firstOfLeastPrecedence_least hfirst
    refine ⟨failure, hmem, ?_, hle⟩
    unfold evaluateOutcomes classifyEvidence
    dsimp only
    unfold endpointFailures at hfirst
    rw [hfirst]
    rfl

/-! ## Definitive endpoints -/

/-- The signals of the payloads, those of the rulesets that apply first. -/
def observedSignals (rulesetsResult legacyResult : ApiOutcome) (defaultBranch : String) :
    List HistorySignals :=
  (ProtectionEndpoint.rulesets.parsePayload rulesetsResult.data defaultBranch).getD [] ++
    (ProtectionEndpoint.legacy.parsePayload legacyResult.data defaultBranch).getD []

theorem flatMap_signals (hrulesets : Definitive .rulesets rulesetsResult access)
    (hlegacy : Definitive .legacy legacyResult access) :
    [classifyEndpoint rulesetsResult .rulesets defaultBranch access,
      classifyEndpoint legacyResult .legacy defaultBranch access].flatMap
        EndpointEvidence.signals =
      observedSignals rulesetsResult legacyResult defaultBranch := by
  rw [List.flatMap_cons, List.flatMap_cons, List.flatMap_nil, List.append_nil,
    signals_classifyEndpoint hrulesets, signals_classifyEndpoint hlegacy, observedSignals]

/-- Definitive endpoints with signals are judged by them. -/
theorem evaluateOutcomes_observed (hrulesets : Definitive .rulesets rulesetsResult access)
    (hlegacy : Definitive .legacy legacyResult access)
    (hne : observedSignals rulesetsResult legacyResult defaultBranch ≠ [])
    (runTimestamp : String) :
    evaluateOutcomes rulesetsResult legacyResult defaultBranch access runTimestamp =
      verdictOf (observedSignals rulesetsResult legacyResult defaultBranch) defaultBranch
        runTimestamp := by
  have hfirst : firstOfLeastPrecedence (endpointFailures rulesetsResult legacyResult
      defaultBranch access) = none := by
    rw [firstOfLeastPrecedence_eq_none_iff, endpointFailures_eq_nil_iff]
    exact ⟨hrulesets, hlegacy⟩
  obtain ⟨merged, hmerged, hverdict⟩ :=
    buildProtectionResult_merge hne defaultBranch runTimestamp
  unfold evaluateOutcomes classifyEvidence
  dsimp only
  unfold endpointFailures at hfirst
  rw [hfirst]
  dsimp only
  rw [flatMap_signals hrulesets hlegacy, hmerged]
  exact hverdict

/-- Definitive endpoints without signals leave the branch unprotected. -/
theorem evaluateOutcomes_absent (hrulesets : Definitive .rulesets rulesetsResult access)
    (hlegacy : Definitive .legacy legacyResult access)
    (hnil : observedSignals rulesetsResult legacyResult defaultBranch = [])
    (runTimestamp : String) :
    ∃ httpStatus, evaluateOutcomes rulesetsResult legacyResult defaultBranch access
      runTimestamp = .unprotected defaultBranch (.absent true httpStatus) runTimestamp ∧
      (rulesetsResult.isOk = true → httpStatus = some 404) := by
  have hfirst : firstOfLeastPrecedence (endpointFailures rulesetsResult legacyResult
      defaultBranch access) = none := by
    rw [firstOfLeastPrecedence_eq_none_iff, endpointFailures_eq_nil_iff]
    exact ⟨hrulesets, hlegacy⟩
  have hsignals := (flatMap_signals hrulesets hlegacy).trans hnil
  unfold evaluateOutcomes classifyEvidence
  dsimp only
  unfold endpointFailures at hfirst
  rw [hfirst]
  dsimp only
  rw [hsignals]
  -- An observed legacy protection always has a signal, so this endpoint is the absent one.
  cases legacyResult with
  | success statusCode data truncated =>
    obtain ⟨entries, rfl⟩ := hlegacy
    simp [observedSignals, ProtectionEndpoint.parsePayload, ApiOutcome.data, Json.isObject] at hnil
  | failure statusCode error retryable =>
    obtain ⟨rfl, rfl⟩ := hlegacy
    cases rulesetsResult with
    | success statusCode' data truncated =>
      obtain ⟨rulesets, rfl⟩ := hrulesets
      exact ⟨some 404, rfl, fun _ => rfl⟩
    | failure statusCode' error' retryable' =>
      obtain ⟨rfl, -⟩ := hrulesets
      exact ⟨some 404, rfl, nofun⟩

end Evaluation

/-! ## Applicable rulesets -/

def fieldText (field : String) (ruleset : Json) : Option String :=
  (ruleset.get field).bind Json.asStr

def refPatterns (key : String) (ruleset : Json) : List String :=
  (((((ruleset.get "conditions").bind (Json.get "ref_name")).bind (Json.get key)).bind
    Json.asArray).map fun arr => arr.filterMap Json.asStr).getD []

/-- The ruleset includes the branch, which is the default one, and does not exclude it. -/
def namesBranch (defaultBranch : String) (ruleset : Json) : Bool :=
  let includes := refPatterns "include" ruleset
  ((if includes.isEmpty then ["~ALL"] else includes).any fun p =>
      refNameMatches p defaultBranch defaultBranch) &&
    !(refPatterns "exclude" ruleset).any fun p => refNameMatches p defaultBranch defaultBranch

/-- The ruleset targets branches, is active, and names the branch. -/
def activelyApplies (defaultBranch : String) (ruleset : Json) : Bool :=
  fieldText "target" ruleset = some "branch" && fieldText "enforcement" ruleset = some "active" &&
    namesBranch defaultBranch ruleset

/-- The ruleset targets branches and names the branch, but its enforcement cannot be read. -/
def unreadApplies (defaultBranch : String) (ruleset : Json) : Bool :=
  fieldText "target" ruleset = some "branch" &&
    (fieldText "enforcement" ruleset).bind RulesetEnforcement.parse = none &&
    namesBranch defaultBranch ruleset

theorem target_iff (text : Option String) :
    text.bind RulesetTarget.parse = some .branch ↔ text = some "branch" := by
  cases text with
  | none => simp
  | some text =>
    simp only [Option.bind_some, RulesetTarget.parse, Option.some.injEq]
    split
    · next h => simp [h]
    · next h =>
      simp only [h, iff_false]
      split
      · nofun
      · split <;> nofun

theorem enforcement_active_iff (text : Option String) :
    text.bind RulesetEnforcement.parse = some .active ↔ text = some "active" := by
  cases text with
  | none => simp
  | some text =>
    simp only [Option.bind_some, RulesetEnforcement.parse, Option.some.injEq]
    split
    · next h => simp [h]
    · split
      · next h => simp [h]
      · next h =>
        simp only [h, iff_false]
        split <;> nofun

/-- The rulesets that are applied: the active ones, and those of unreadable enforcement. -/
theorem rulesetApplies_eq (ruleset : Json) (defaultBranch : String) :
    rulesetApplies ruleset defaultBranch =
      (activelyApplies defaultBranch ruleset || unreadApplies defaultBranch ruleset) := by
  have hactive := enforcement_active_iff (fieldText "enforcement" ruleset)
  have htarget := target_iff (fieldText "target" ruleset)
  unfold rulesetApplies rulesetAppliesToBranch activelyApplies unreadApplies
  dsimp only
  change (if (fieldText "target" ruleset).bind RulesetTarget.parse ≠ some .branch then false
    else if (fieldText "enforcement" ruleset).bind RulesetEnforcement.parse ≠ none ∧
      (fieldText "enforcement" ruleset).bind RulesetEnforcement.parse ≠ some .active then false
    else namesBranch defaultBranch ruleset) = _
  simp only [ne_eq, htarget, hactive]
  by_cases ht : fieldText "target" ruleset = some "branch"
  · by_cases ha : fieldText "enforcement" ruleset = some "active"
    · simp [ht, ha]
    · by_cases hn : (fieldText "enforcement" ruleset).bind RulesetEnforcement.parse = none
      · simp [ht, ha, hn]
      · simp [ht, ha, hn]
  · simp [ht]

section Rulesets

variable {rulesetsResult legacyResult : ApiOutcome} {runTimestamp : String}

/-- The signal is blocked by one of the rulesets that are applied, or by the legacy protection. -/
def Blocked (applies : Json → Bool) (rulesetsResult legacyResult : ApiOutcome) (signal : Signal) :
    Prop :=
  (∃ rulesets, rulesetsResult.data = some (.array rulesets) ∧
      ∃ r ∈ rulesets, applies r = true ∧ signal.of (summarizeRuleset r) = some true) ∨
    ∃ entries, legacyResult.data = some (.object entries) ∧
      signal.of (summarizeLegacyProtection (.object entries)) = some true

theorem blockedIn_observedSignals (signal : Signal) :
    blockedIn (observedSignals rulesetsResult legacyResult defaultBranch) signal = true ↔
      Blocked (rulesetApplies · defaultBranch) rulesetsResult legacyResult signal := by
  have hrulesets : (∃ s ∈ (ProtectionEndpoint.rulesets.parsePayload rulesetsResult.data
      defaultBranch).getD [], signal.of s = some true) ↔
      ∃ rulesets, rulesetsResult.data = some (.array rulesets) ∧ ∃ r ∈ rulesets,
        rulesetApplies r defaultBranch = true ∧ signal.of (summarizeRuleset r) = some true := by
    unfold ProtectionEndpoint.parsePayload
    cases rulesetsResult.data with
    | none => simp
    | some data => cases data <;> simp [Json.asArray, and_assoc]
  have hlegacy : (∃ s ∈ (ProtectionEndpoint.legacy.parsePayload legacyResult.data
      defaultBranch).getD [], signal.of s = some true) ↔
      ∃ entries, legacyResult.data = some (.object entries) ∧
        signal.of (summarizeLegacyProtection (.object entries)) = some true := by
    unfold ProtectionEndpoint.parsePayload
    cases legacyResult.data with
    | none => simp
    | some data => cases data <;> simp [Json.isObject]
  rw [Blocked, ← hrulesets, ← hlegacy, blockedIn, List.any_eq_true, observedSignals]
  simp only [List.mem_append, decide_eq_true_eq, or_and_right, exists_or]

/-- A branch is protected when the endpoints are definitive and each signal is blocked. -/
theorem evaluateOutcomes_protected_iff :
    evaluateOutcomes rulesetsResult legacyResult defaultBranch access runTimestamp =
        .protected defaultBranch runTimestamp ↔
      (Definitive .rulesets rulesetsResult access ∧ Definitive .legacy legacyResult access) ∧
        ∀ signal, Blocked (rulesetApplies · defaultBranch) rulesetsResult legacyResult signal := by
  by_cases hdef : Definitive .rulesets rulesetsResult access ∧
      Definitive .legacy legacyResult access
  · obtain ⟨hrulesets, hlegacy⟩ := hdef
    by_cases hnil : observedSignals rulesetsResult legacyResult defaultBranch = []
    · obtain ⟨httpStatus, heval, -⟩ :=
        evaluateOutcomes_absent hrulesets hlegacy hnil runTimestamp
      rw [heval]
      refine ⟨nofun, fun h => ?_⟩
      have hblocked := (blockedIn_observedSignals _).mpr (h.2 .forcePush)
      rw [hnil] at hblocked
      cases hblocked
    · rw [evaluateOutcomes_observed hrulesets hlegacy hnil, verdictOf_protected_iff]
      simp only [blockedIn_observedSignals, hrulesets, hlegacy, true_and]
  · have hfailures : endpointFailures rulesetsResult legacyResult defaultBranch access ≠ [] :=
      fun h => hdef (endpointFailures_eq_nil_iff.mp h)
    obtain ⟨failure, -, heval, -⟩ := evaluateOutcomes_indeterminate hfailures runTimestamp
    rw [heval]
    exact ⟨nofun, fun h => absurd h.1 hdef⟩

theorem Blocked.mono {applies applies' : Json → Bool} {signal : Signal}
    (hmono : ∀ r, applies r = true → applies' r = true)
    (h : Blocked applies rulesetsResult legacyResult signal) :
    Blocked applies' rulesetsResult legacyResult signal := by
  rcases h with ⟨rulesets, hdata, r, hr, happlies, hblocks⟩ | h
  · exact .inl ⟨rulesets, hdata, r, hr, hmono r happlies, hblocks⟩
  · exact .inr h

end Rulesets

/-! ## Lists of rulesets -/

section Lists

/-- A response that lists the rulesets. -/
def listed (status : UInt16) (rulesets : List Json) (truncated : Bool) : ApiOutcome :=
  .success status (some (.array rulesets)) truncated

variable {status : UInt16} {truncated : Bool} {rulesets rulesets' more : List Json}
  {legacyResult : ApiOutcome} {runTimestamp : String}

theorem definitive_listed : Definitive .rulesets (listed status rulesets truncated) access :=
  ⟨rulesets, rfl⟩

theorem mem_observedSignals {s : HistorySignals} :
    s ∈ observedSignals (listed status rulesets truncated) legacyResult defaultBranch ↔
      (∃ r ∈ rulesets, rulesetApplies r defaultBranch = true ∧ summarizeRuleset r = s) ∨
        s ∈ (ProtectionEndpoint.legacy.parsePayload legacyResult.data defaultBranch).getD [] := by
  rw [observedSignals, List.mem_append]
  apply or_congr_left
  simp [listed, ApiOutcome.data, ProtectionEndpoint.parsePayload, Json.asArray, and_assoc]

/-- Lists of rulesets with as many signals as none, and as much blocked, get the same verdict. -/
theorem evaluateOutcomes_congr
    (hsame : Definitive .legacy legacyResult access →
      (observedSignals (listed status rulesets truncated) legacyResult defaultBranch = [] ↔
        observedSignals (listed status rulesets' truncated) legacyResult defaultBranch = []) ∧
      ∀ signal, blockedIn
        (observedSignals (listed status rulesets truncated) legacyResult defaultBranch) signal =
        blockedIn (observedSignals (listed status rulesets' truncated) legacyResult defaultBranch)
          signal) :
    evaluateOutcomes (listed status rulesets truncated) legacyResult defaultBranch access
        runTimestamp =
      evaluateOutcomes (listed status rulesets' truncated) legacyResult defaultBranch access
        runTimestamp := by
  by_cases hlegacy : Definitive .legacy legacyResult access
  · obtain ⟨hnil, hblocked⟩ := hsame hlegacy
    by_cases h : observedSignals (listed status rulesets truncated) legacyResult
        defaultBranch = []
    · obtain ⟨httpStatus, heval, hstatus⟩ :=
        evaluateOutcomes_absent definitive_listed hlegacy h runTimestamp
      obtain ⟨httpStatus', heval', hstatus'⟩ :=
        evaluateOutcomes_absent definitive_listed hlegacy (hnil.mp h) runTimestamp
      rw [heval, heval', hstatus rfl, hstatus' rfl]
    · have h' := fun e => h (hnil.mpr e)
      rw [evaluateOutcomes_observed definitive_listed hlegacy h,
        evaluateOutcomes_observed definitive_listed hlegacy h', verdictOf_eq_iff]
      exact hblocked
  · have hfailures : ∀ rulesets, endpointFailures (listed status rulesets truncated) legacyResult
        defaultBranch access = [classifyEndpoint legacyResult .legacy defaultBranch
          access].filterMap EndpointEvidence.failure? := fun _ => rfl
    rcases classifyEndpoint_cases .legacy legacyResult defaultBranch access with
      ⟨-, -, -, hdef⟩ | ⟨-, -, -, hdef⟩ | ⟨failure, hclass, -⟩
    · exact absurd hdef hlegacy
    · exact absurd hdef hlegacy
    · have hone : ∀ rulesets, endpointFailures (listed status rulesets truncated) legacyResult
          defaultBranch access = [failure] := by
        intro rulesets
        rw [hfailures, hclass]
        rfl
      have heval : ∀ rulesets, evaluateOutcomes (listed status rulesets truncated) legacyResult
          defaultBranch access runTimestamp =
          .unobservable defaultBranch failure.reason failure.httpStatus runTimestamp := by
        intro rulesets
        obtain ⟨f, hf, heval, -⟩ := evaluateOutcomes_indeterminate
          (by rw [hone rulesets]; nofun) runTimestamp
        rw [hone rulesets, List.mem_singleton] at hf
        rw [heval, hf]
      rw [heval, heval]

/-- Only what is among the observed signals counts. -/
theorem evaluateOutcomes_eq_of_mem_observed
    (hmem : ∀ s, s ∈ observedSignals (listed status rulesets truncated) legacyResult
      defaultBranch ↔
      s ∈ observedSignals (listed status rulesets' truncated) legacyResult defaultBranch) :
    evaluateOutcomes (listed status rulesets truncated) legacyResult defaultBranch access
        runTimestamp =
      evaluateOutcomes (listed status rulesets' truncated) legacyResult defaultBranch access
        runTimestamp := by
  refine evaluateOutcomes_congr fun _ => ⟨?_, ?_⟩
  · simp only [List.eq_nil_iff_forall_not_mem, hmem]
  · intro signal
    rw [Bool.eq_iff_iff, blockedIn, blockedIn, List.any_eq_true, List.any_eq_true]
    simp only [hmem]

/-- Rulesets count as a set. -/
theorem evaluateOutcomes_eq_of_mem_iff (h : ∀ r, r ∈ rulesets ↔ r ∈ rulesets') :
    evaluateOutcomes (listed status rulesets truncated) legacyResult defaultBranch access
        runTimestamp =
      evaluateOutcomes (listed status rulesets' truncated) legacyResult defaultBranch access
        runTimestamp := by
  refine evaluateOutcomes_eq_of_mem_observed fun s => ?_
  simp only [mem_observedSignals, h]

/-! ## Added rulesets -/

/-- Added rulesets block what those of them that count block. -/
theorem blocked_append_iff {applies : Json → Bool} {signal : Signal} :
    Blocked applies (listed status (rulesets ++ more) truncated) legacyResult signal ↔
      Blocked applies (listed status rulesets truncated) legacyResult signal ∨
        ∃ r ∈ more, applies r = true ∧ signal.of (summarizeRuleset r) = some true := by
  constructor
  · rintro (⟨_, ⟨⟩, r, hr, hblocks⟩ | h)
    · rcases List.mem_append.mp hr with hr | hr
      · exact .inl (.inl ⟨_, rfl, r, hr, hblocks⟩)
      · exact .inr ⟨r, hr, hblocks⟩
    · exact .inl (.inr h)
  · rintro ((⟨_, ⟨⟩, r, hr, hblocks⟩ | h) | ⟨r, hr, hblocks⟩)
    · exact .inl ⟨_, rfl, r, List.mem_append_left _ hr, hblocks⟩
    · exact .inr h
    · exact .inl ⟨_, rfl, r, List.mem_append_right _ hr, hblocks⟩

/-- An added ruleset that applies gives a signal. -/
theorem observedSignals_append_ne_nil
    (hmore : ∃ r ∈ more, rulesetApplies r defaultBranch = true) :
    observedSignals (listed status (rulesets ++ more) truncated) legacyResult defaultBranch ≠
      [] := by
  obtain ⟨r, hr, happlies⟩ := hmore
  have hobserved : summarizeRuleset r ∈
      observedSignals (listed status (rulesets ++ more) truncated) legacyResult defaultBranch :=
    mem_observedSignals.mpr (.inl ⟨r, List.mem_append_right _ hr, happlies, rfl⟩)
  exact List.ne_nil_of_mem hobserved

/-- Added rulesets that do not apply give no signal. -/
theorem mem_observedSignals_append
    (hmore : ¬ ∃ r ∈ more, rulesetApplies r defaultBranch = true) (s : HistorySignals) :
    s ∈ observedSignals (listed status (rulesets ++ more) truncated) legacyResult defaultBranch ↔
      s ∈ observedSignals (listed status rulesets truncated) legacyResult defaultBranch := by
  rw [mem_observedSignals, mem_observedSignals]
  apply or_congr_left
  constructor
  · rintro ⟨r, hr, happlies, rfl⟩
    rcases List.mem_append.mp hr with hr | hr
    · exact ⟨r, hr, happlies, rfl⟩
    · exact absurd ⟨r, hr, happlies⟩ hmore
  · rintro ⟨r, hr, happlies, rfl⟩
    exact ⟨r, List.mem_append_left _ hr, happlies, rfl⟩

/-- More rulesets keep a branch protected. -/
theorem evaluateOutcomes_protected_append
    (h : evaluateOutcomes (listed status rulesets truncated) legacyResult defaultBranch access
      runTimestamp = .protected defaultBranch runTimestamp) :
    evaluateOutcomes (listed status (rulesets ++ more) truncated) legacyResult defaultBranch
      access runTimestamp = .protected defaultBranch runTimestamp := by
  rw [evaluateOutcomes_protected_iff] at h ⊢
  exact ⟨⟨definitive_listed, h.1.2⟩, fun signal => blocked_append_iff.mpr (.inl (h.2 signal))⟩

theorem verdictOf_ne_absent (signals : List HistorySignals) (defaultBranch timestamp : String)
    (confirmed : Bool) (httpStatus : Option UInt16) :
    verdictOf signals defaultBranch timestamp ≠
      .unprotected defaultBranch (.absent confirmed httpStatus) timestamp := by
  unfold verdictOf fromHistorySignals
  cases blockedIn signals .forcePush <;> cases blockedIn signals .deletion <;> nofun

/-- More rulesets leave the verdict when they add no signal to none, and block nothing new. -/
theorem evaluateOutcomes_append_eq_iff :
    evaluateOutcomes (listed status (rulesets ++ more) truncated) legacyResult defaultBranch access
        runTimestamp =
      evaluateOutcomes (listed status rulesets truncated) legacyResult defaultBranch access
        runTimestamp ↔
      (Definitive .legacy legacyResult access →
        (∃ r ∈ more, rulesetApplies r defaultBranch = true) →
        observedSignals (listed status rulesets truncated) legacyResult defaultBranch ≠ [] ∧
          ∀ signal, (∃ r ∈ more, rulesetApplies r defaultBranch = true ∧
            signal.of (summarizeRuleset r) = some true) →
            Blocked (rulesetApplies · defaultBranch) (listed status rulesets truncated)
              legacyResult signal) := by
  constructor
  · rintro heval hlegacy hmore
    have hne : observedSignals (listed status (rulesets ++ more) truncated) legacyResult
        defaultBranch ≠ [] := observedSignals_append_ne_nil hmore
    rw [evaluateOutcomes_observed definitive_listed hlegacy hne] at heval
    by_cases hnil : observedSignals (listed status rulesets truncated) legacyResult
        defaultBranch = []
    · obtain ⟨httpStatus, habsent, -⟩ :=
        evaluateOutcomes_absent definitive_listed hlegacy hnil runTimestamp
      exact (verdictOf_ne_absent _ _ _ _ _ (heval.trans habsent)).elim
    · rw [evaluateOutcomes_observed definitive_listed hlegacy hnil, verdictOf_eq_iff] at heval
      refine ⟨hnil, fun signal hblocks => ?_⟩
      rw [← blockedIn_observedSignals, ← heval, blockedIn_observedSignals, blocked_append_iff]
      exact .inr hblocks
  · intro h
    by_cases hmore : ∃ r ∈ more, rulesetApplies r defaultBranch = true
    · refine evaluateOutcomes_congr fun hlegacy => ?_
      obtain ⟨hne, hblocks⟩ := h hlegacy hmore
      have hne' : observedSignals (listed status (rulesets ++ more) truncated) legacyResult
          defaultBranch ≠ [] := observedSignals_append_ne_nil hmore
      refine ⟨⟨fun e => absurd e hne', fun e => absurd e hne⟩, fun signal => ?_⟩
      rw [Bool.eq_iff_iff, blockedIn_observedSignals, blockedIn_observedSignals,
        blocked_append_iff]
      exact or_iff_left_of_imp (hblocks signal)
    · exact evaluateOutcomes_eq_of_mem_observed (mem_observedSignals_append hmore)

end Lists

/-! ## Rulesets of unreadable enforcement -/

/-- Both signals are blocked, but some only by rulesets whose enforcement cannot be read. -/
def RestsOnUnread (rulesetsResult legacyResult : ApiOutcome) (defaultBranch : String)
    (access : AdminAccess) : Prop :=
  (Definitive .rulesets rulesetsResult access ∧ Definitive .legacy legacyResult access) ∧
    (∀ signal, Blocked (rulesetApplies · defaultBranch) rulesetsResult legacyResult signal) ∧
    ∃ signal, ¬ Blocked (activelyApplies defaultBranch) rulesetsResult legacyResult signal

/--
Where the legacy protection is known, rulesets of unreadable enforcement come to signals that are
there already, and block no signal that is not blocked.
-/
def UnreadAddsNothing (rulesetsResult legacyResult : ApiOutcome) (defaultBranch : String)
    (access : AdminAccess) (more : List Json) : Prop :=
  Definitive .legacy legacyResult access →
    (∃ r ∈ more, unreadApplies defaultBranch r = true) →
    observedSignals rulesetsResult legacyResult defaultBranch ≠ [] ∧
      ∀ signal, (∃ r ∈ more, unreadApplies defaultBranch r = true ∧
        signal.of (summarizeRuleset r) = some true) →
        Blocked (rulesetApplies · defaultBranch) rulesetsResult legacyResult signal

theorem rulesetApplies_of_active {ruleset : Json}
    (h : activelyApplies defaultBranch ruleset = true) :
    rulesetApplies ruleset defaultBranch = true := by
  rw [rulesetApplies_eq, h, Bool.true_or]

/--
The verdict is the one of the active rulesets exactly when it does not rest on rulesets of
unreadable enforcement. It is one of the set of rulesets, stays protected when rulesets are added,
and reports a failure of least precedence where an endpoint is indeterminate.
-/
theorem protectionVerdict_iff (legacyResult : ApiOutcome) (defaultBranch : String)
    (access : AdminAccess) (runTimestamp : String) :
    (∀ rulesetsResult,
      (evaluateOutcomes rulesetsResult legacyResult defaultBranch access runTimestamp =
          .protected defaultBranch runTimestamp ↔
        (Definitive .rulesets rulesetsResult access ∧ Definitive .legacy legacyResult access) ∧
          ∀ signal, Blocked (activelyApplies defaultBranch) rulesetsResult legacyResult signal) ↔
      ¬ RestsOnUnread rulesetsResult legacyResult defaultBranch access) ∧
    (∀ status truncated rulesets more, (∀ r ∈ more, activelyApplies defaultBranch r = false) →
      (evaluateOutcomes (listed status (rulesets ++ more) truncated) legacyResult defaultBranch
          access runTimestamp =
        evaluateOutcomes (listed status rulesets truncated) legacyResult defaultBranch access
          runTimestamp ↔
      UnreadAddsNothing (listed status rulesets truncated) legacyResult defaultBranch access
        more)) ∧
    (∀ status truncated rulesets rulesets', (∀ r, r ∈ rulesets ↔ r ∈ rulesets') →
      evaluateOutcomes (listed status rulesets truncated) legacyResult defaultBranch access
          runTimestamp =
        evaluateOutcomes (listed status rulesets' truncated) legacyResult defaultBranch access
          runTimestamp) ∧
    (∀ status truncated rulesets more,
      evaluateOutcomes (listed status rulesets truncated) legacyResult defaultBranch access
          runTimestamp = .protected defaultBranch runTimestamp →
      evaluateOutcomes (listed status (rulesets ++ more) truncated) legacyResult defaultBranch
          access runTimestamp = .protected defaultBranch runTimestamp) ∧
    ∀ rulesetsResult,
      ¬ (Definitive .rulesets rulesetsResult access ∧ Definitive .legacy legacyResult access) →
      ∃ failure ∈ endpointFailures rulesetsResult legacyResult defaultBranch access,
        evaluateOutcomes rulesetsResult legacyResult defaultBranch access runTimestamp =
          .unobservable defaultBranch failure.reason failure.httpStatus runTimestamp ∧
        ∀ other ∈ endpointFailures rulesetsResult legacyResult defaultBranch access,
          failure.precedence ≤ other.precedence := by
  refine ⟨?_, ?_, ?_, ?_, ?_⟩
  · intro rulesetsResult
    rw [evaluateOutcomes_protected_iff, RestsOnUnread]
    constructor
    · rintro hiff ⟨hdef, hblocked, signal, hnot⟩
      exact hnot ((hiff.mp ⟨hdef, hblocked⟩).2 signal)
    · intro hnot
      constructor
      · rintro ⟨hdef, hblocked⟩
        refine ⟨hdef, fun signal => ?_⟩
        by_contra hsignal
        exact hnot ⟨hdef, hblocked, signal, hsignal⟩
      · rintro ⟨hdef, hblocked⟩
        exact ⟨hdef, fun signal => (hblocked signal).mono fun r => rulesetApplies_of_active⟩
  · intro status truncated rulesets more hmore
    have hunread : ∀ r ∈ more, rulesetApplies r defaultBranch = unreadApplies defaultBranch r := by
      intro r hr
      rw [rulesetApplies_eq, hmore r hr, Bool.false_or]
    have hany : (∃ r ∈ more, rulesetApplies r defaultBranch = true) ↔
        ∃ r ∈ more, unreadApplies defaultBranch r = true :=
      exists_congr fun r => and_congr_right fun hr => by rw [hunread r hr]
    have hblocks : ∀ signal : Signal, (∃ r ∈ more, rulesetApplies r defaultBranch = true ∧
        signal.of (summarizeRuleset r) = some true) ↔
        ∃ r ∈ more, unreadApplies defaultBranch r = true ∧
          signal.of (summarizeRuleset r) = some true := fun signal =>
      exists_congr fun r => and_congr_right fun hr => by rw [hunread r hr]
    rw [evaluateOutcomes_append_eq_iff, UnreadAddsNothing]
    simp only [hany, hblocks]
  · intro status truncated rulesets rulesets' h
    exact evaluateOutcomes_eq_of_mem_iff h
  · intro status truncated rulesets more h
    exact evaluateOutcomes_protected_append h
  · intro rulesetsResult h
    exact evaluateOutcomes_indeterminate (fun e => h (endpointFailures_eq_nil_iff.mp e)) _

/-- A ruleset that blocks both signals, with an enforcement that is not recognised. -/
def pausedRuleset (enforcement : String) : Json :=
  .object [("target", .string "branch"), ("enforcement", .string enforcement),
    ("rules", .array [.object [("type", .string "non_fast_forward")],
      .object [("type", .string "deletion")]])]

def legacyNotFound : ApiOutcome := .failure (some 404) "not found" false

/-- A paused ruleset protects the branch, although no active one does. -/
theorem not_protectionVerdict :
    ¬ ∀ (rulesetsResult legacyResult : ApiOutcome) (defaultBranch : String) (access : AdminAccess)
      (runTimestamp : String),
      evaluateOutcomes rulesetsResult legacyResult defaultBranch access runTimestamp =
          .protected defaultBranch runTimestamp ↔
        (Definitive .rulesets rulesetsResult access ∧ Definitive .legacy legacyResult access) ∧
          ∀ signal, Blocked (activelyApplies defaultBranch) rulesetsResult legacyResult signal := by
  intro h
  have hprotected : evaluateOutcomes (listed 200 [pausedRuleset "paused"] false) legacyNotFound
      "main" .admin "" = .protected "main" "" := by decide +kernel
  have hinactive : activelyApplies "main" (pausedRuleset "paused") = false := by decide +kernel
  rcases ((h _ _ _ _ _).mp hprotected).2 .forcePush with
    ⟨_, ⟨⟩, r, hr, happlies, -⟩ | ⟨entries, hentries, -⟩
  · rw [List.mem_singleton.mp hr, hinactive] at happlies
    cases happlies
  · cases hentries

/-- An active ruleset protects the branch, before and after one that is disabled is added. -/
theorem protectionVerdict_active :
    (evaluateOutcomes (listed 200 [pausedRuleset "active"] false) legacyNotFound "main" .admin "" =
        .protected "main" "" ↔
      (Definitive .rulesets (listed 200 [pausedRuleset "active"] false) .admin ∧
        Definitive .legacy legacyNotFound .admin) ∧
        ∀ signal, Blocked (activelyApplies "main") (listed 200 [pausedRuleset "active"] false)
          legacyNotFound signal) ∧
      evaluateOutcomes (listed 200 ([pausedRuleset "active"] ++ [pausedRuleset "disabled"]) false)
          legacyNotFound "main" .admin "" =
        evaluateOutcomes (listed 200 [pausedRuleset "active"] false) legacyNotFound "main"
          .admin "" := by
  obtain ⟨hverdict, hadded, -⟩ := protectionVerdict_iff legacyNotFound "main" .admin ""
  refine ⟨(hverdict _).mpr ?_, (hadded 200 false [pausedRuleset "active"]
    [pausedRuleset "disabled"] ?_).mpr ?_⟩
  · rintro ⟨-, -, signal, hsignal⟩
    refine hsignal (.inl ⟨_, rfl, _, List.mem_singleton_self _, ?_, ?_⟩)
    · decide +kernel
    · cases signal <;> decide +kernel
  · decide +kernel
  · rintro - ⟨r, hr, happlies⟩
    rw [List.mem_singleton.mp hr] at happlies
    exact absurd happlies (by decide +kernel)

end GhReport.Collector.BranchProtection
