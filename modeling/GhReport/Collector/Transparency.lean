import GhReport.Collector.BranchProtection
import GhReport.Collector.Dependabot
import GhReport.Collector.SecretScanning
import GhReport.Collector.SecurityPolicy
import GhReport.GitHub.CacheAge

/-! # Evaluations from cached details

Four evaluations read the details of a repository, and an entry that was exported
and seeded again keeps only some of its fields. Each evaluation is compared on the
details as they came and on the entry; the results agree exactly where it reads
nothing that was lost.
-/

namespace GhReport.Collector

open Domain GitHub

/-! ## Served details -/

/-- An answer from a seeded entry: the entry is used as it is, or is stale and confirmed. -/
inductive FromCache (S : DetailSource) (detail : CachedRepoDetail) : ApiOutcome → Prop where
  | fresh {c : DetailClient} {name safeName : String} {outcome : ApiOutcome}
      (hname : S.sanitizePathSegment name = .ok safeName)
      (hentry : c.repoDetailCache[name]? = some detail.seeded)
      (hanswer : (c.repoDetails S name).1 = .returned outcome) : FromCache S detail outcome
  | confirmed {c c' : DetailClient} {name safeName : String} {newEtag : Option String}
      {outcome : ApiOutcome} (hname : S.sanitizePathSegment name = .ok safeName)
      (hentry : c.repoDetailCache[name]? = some { detail.seeded with stale := true })
      (hcall : c'.calls[c.calls.length]? = (c.repoDetails S name).2.calls[c.calls.length]?)
      (hanswer : (c'.tryEtagRevalidation S c.calls.length (.notModified newEtag)).1 =
        .returned outcome) : FromCache S detail outcome

theorem FromCache.outcome {S : DetailSource} {detail : CachedRepoDetail} {outcome : ApiOutcome}
    (h : FromCache S detail outcome) : outcome = detail.seeded.served := by
  cases h with
  | fresh hname hentry hanswer =>
    simp only [DetailClient.repoDetails, hname, hentry] at hanswer
    cases hanswer
    rfl
  | confirmed hname hentry hcall hanswer =>
    simp only [DetailClient.repoDetails, hname, hentry] at hcall
    cases hetag : detail.seeded.etag with
    | none =>
      simp only [hetag, if_true, List.getElem?_concat_length] at hcall
      simp only [DetailClient.tryEtagRevalidation, hcall] at hanswer
      cases hanswer
    | some etag =>
      simp only [hetag, if_true, List.getElem?_concat_length] at hcall
      simp only [DetailClient.tryEtagRevalidation, hcall] at hanswer
      cases hanswer
      rfl

/-! ## Evaluations -/

/-- What the evaluations of a repository read beside its details. -/
structure RepositoryReads where
  validName : Bool
  repo : Repository
  rulesets : ApiOutcome
  legacy : ApiOutcome
  alerts : ApiOutcome
  contents : String → ApiOutcome
  orgSummary : Option OrgAlertSummary
  runTimestamp : String

structure Evaluations where
  securityPolicy : SecurityPolicyResult
  secretScanning : SecretScanningResult
  dependabotSecurityUpdates : DependabotResult
  branchProtection : BranchProtectionResult
deriving DecidableEq

def RepositoryReads.evaluate (reads : RepositoryReads) (repoDetails : ApiOutcome) :
    Evaluations where
  securityPolicy :=
    SecurityPolicy.evaluate reads.validName reads.repo repoDetails reads.contents reads.runTimestamp
  secretScanning :=
    SecretScanning.evaluate reads.validName reads.repo repoDetails reads.alerts reads.orgSummary
      reads.runTimestamp
  dependabotSecurityUpdates :=
    Dependabot.evaluate reads.validName repoDetails reads.runTimestamp
  branchProtection :=
    BranchProtection.evaluate reads.validName reads.repo reads.rulesets reads.legacy repoDetails
      reads.runTimestamp

section Details

variable {data : Json} {statusCode : UInt16} {detail : CachedRepoDetail}

/-- The details that an export keeps of a body. -/
def Keeps (detail : CachedRepoDetail) (data : Json) : Prop :=
  detailFields detail.object = detailFields data

theorem Keeps.securityAndAnalysis (h : Keeps detail data) :
    detail.object.get "security_and_analysis" = data.get "security_and_analysis" :=
  congrArg (fun fields => fields.2.2.1) h

theorem Keeps.isSecurityPolicyEnabled (h : Keeps detail data) :
    (detail.object.get "is_security_policy_enabled").bind Json.asBool =
      (data.get "is_security_policy_enabled").bind Json.asBool :=
  congrArg (fun fields => fields.2.2.2) h

@[simp] theorem get_permissions (detail : CachedRepoDetail) :
    detail.object.get "permissions" = none := by
  obtain ⟨_, _ | _, _ | _, _ | _, _, _, _⟩ := detail <;> rfl

/-! ## Dependabot -/

theorem dependabot_served (h : Keeps detail data) (validName : Bool) (runTimestamp : String) :
    Dependabot.evaluate validName detail.seeded.served runTimestamp =
      Dependabot.evaluate validName (.success 200 (some data) false) runTimestamp := by
  have hstatus : Dependabot.extractStatus detail.object = Dependabot.extractStatus data := by
    simp only [Dependabot.extractStatus, h.securityAndAnalysis]
  simp only [Dependabot.evaluate, CachedResult.served, CachedRepoDetail.seeded, ApiOutcome.isOk,
    ApiOutcome.data, ApiOutcome.statusCode, ApiOutcome.isRetryable, Option.bind_some, hstatus]
  rfl

/-! ## Secret scanning -/

def RepoMetadata.httpStatus : SecretScanning.RepoMetadata → Option UInt16
  | .enabled httpStatus | .disabled httpStatus => httpStatus
  | .unavailable (.missing httpStatus) | .unavailable (.malformed httpStatus)
  | .unavailable (.failure _ httpStatus) => httpStatus

theorem statusNode_error {httpStatus : Option UInt16} {fields : List String} {node : Json}
    {metadata : Event.MetadataUnavailable}
    (h : SecretScanning.statusNode httpStatus fields node = .error metadata) :
    metadata = .missing httpStatus ∨ metadata = .malformed httpStatus := by
  induction fields generalizing node with
  | nil => cases h
  | cons field rest ih =>
    unfold SecretScanning.statusNode at h
    split at h
    · cases h
      exact .inl rfl
    · cases h
      exact .inl rfl
    · split at h
      · cases h
        exact .inr rfl
      · exact ih h

/-- The metadata of a successful lookup carries its status code. -/
theorem httpStatus_extractRepoMetadata (data : Option Json) :
    RepoMetadata.httpStatus (SecretScanning.extractRepoMetadata (.success statusCode data false)) =
      some statusCode := by
  simp only [SecretScanning.extractRepoMetadata, ApiOutcome.isOk, ApiOutcome.statusCode,
    Bool.not_true, Bool.false_eq_true, if_false]
  split
  · rfl
  · split
    · next metadata herror =>
      rcases statusNode_error herror with rfl | rfl
      · rfl
      · rfl
    · split
      · rfl
      · split
        · rfl
        · rfl

theorem fromObservations_injective {metadata metadata' : SecretScanning.RepoMetadata}
    {probe : Event.SecretScanningAlerts} {timestamp : String}
    (h : SecretScanning.fromObservations metadata probe timestamp =
      SecretScanning.fromObservations metadata' probe timestamp) : metadata = metadata' := by
  rcases probe with ⟨_ | _, _ | _, _⟩ | ⟨_, _, _⟩ <;> cases metadata <;> cases metadata' <;>
    simp_all [SecretScanning.fromObservations]

theorem isObject_of_get {key : String} {value : Json} (h : data.get key = some value) :
    data.isObject = true := by
  cases data with
  | object entries => rfl
  | null | bool | number | string | array => cases h

/-- Details that are no object are malformed, and the entry made from them misses the field. -/
theorem extractRepoMetadata_served_iff (h : Keeps detail data) :
    SecretScanning.extractRepoMetadata detail.seeded.served =
        SecretScanning.extractRepoMetadata (.success statusCode (some data) false) ↔
      statusCode = 200 ∧ data.isObject = true := by
  have hserved : detail.seeded.served = .success 200 (some detail.object) false := rfl
  have hsame : data.isObject = true →
      SecretScanning.extractRepoMetadata detail.seeded.served =
        SecretScanning.extractRepoMetadata (.success 200 (some data) false) := by
    intro hobject
    have hnode : SecretScanning.statusNode (some 200)
          ["security_and_analysis", "secret_scanning", "status"] detail.object =
        SecretScanning.statusNode (some 200)
          ["security_and_analysis", "secret_scanning", "status"] data := by
      rw [SecretScanning.statusNode, h.securityAndAnalysis, ← SecretScanning.statusNode]
    have hfilter : (some data).filter Json.isObject = some data := by
      rw [Option.filter_some, if_pos hobject]
    have hdetail : (some detail.object).filter Json.isObject = some detail.object := rfl
    simp only [hserved, SecretScanning.extractRepoMetadata, ApiOutcome.isOk, ApiOutcome.data,
      ApiOutcome.statusCode, hfilter, hdetail, hnode, Bool.not_true, Bool.false_eq_true, if_false]
  constructor
  · intro heq
    have hcode := congrArg RepoMetadata.httpStatus heq
    rw [hserved, httpStatus_extractRepoMetadata, httpStatus_extractRepoMetadata] at hcode
    obtain rfl := Option.some.inj hcode
    refine ⟨rfl, ?_⟩
    by_contra hobject
    have hnone : data.get "security_and_analysis" = none := by
      cases hget : data.get "security_and_analysis" with
      | none => rfl
      | some value => exact absurd (isObject_of_get hget) hobject
    have hfilter : (some data).filter Json.isObject = none := by
      rw [Option.filter_some, if_neg hobject]
    have hdetail : (some detail.object).filter Json.isObject = some detail.object := rfl
    simp [hserved, SecretScanning.extractRepoMetadata, ApiOutcome.isOk, ApiOutcome.data,
      ApiOutcome.statusCode, hfilter, hdetail, SecretScanning.statusNode, h.securityAndAnalysis,
      hnone] at heq
  · rintro ⟨rfl, hobject⟩
    exact hsame hobject

theorem secretScanning_served_iff (h : Keeps detail data) (repo : Repository) (alerts : ApiOutcome)
    (orgSummary : Option OrgAlertSummary) (runTimestamp : String) :
    SecretScanning.evaluate true repo detail.seeded.served alerts orgSummary runTimestamp =
        SecretScanning.evaluate true repo (.success statusCode (some data) false) alerts orgSummary
          runTimestamp ↔
      statusCode = 200 ∧ data.isObject = true := by
  rw [← extractRepoMetadata_served_iff h]
  constructor
  · intro heq
    cases orgSummary with
    | none => exact fromObservations_injective heq
    | some summary => exact fromObservations_injective heq
  · intro heq
    simp only [SecretScanning.evaluate, heq]

/-! ## Security policy -/

open SecurityPolicy

/-- A lookup that found no file and failed in no way. -/
def Quiet (content : ApiOutcome) : Prop :=
  isFile content = false ∧ policyFailure content true = none ∧ permissionStatus content = false ∧
    retryableError content = false

instance (content : ApiOutcome) : Decidable (Quiet content) := inferInstanceAs (Decidable (_ ∧ _))

theorem policyFailure_priority {outcome : ApiOutcome} {contents : Bool}
    {reason : Event.IndeterminateReason} (h : policyFailure outcome contents = some reason) :
    reason = .invalid ∨ priority reason < priority .invalid := by
  unfold policyFailure at h
  split at h
  · split at h
    · cases h
    · cases h
      exact .inl rfl
  · split at h
    · cases h
      exact .inr (by decide)
    · split at h
      · cases h
      · split at h
        · cases h
          exact .inr (by decide)
        · split at h
          · cases h
            exact .inr (by decide)
          · cases h
            exact .inl rfl

/-- An invalid payload before it makes no difference to a lookup that fails. -/
theorem record_invalid {content : ApiOutcome} {reason : Event.IndeterminateReason}
    (h : policyFailure content true = some reason) (permission retryable : Bool) :
    PolicyLookups.record ⟨permission, retryable, some .invalid⟩ content =
      PolicyLookups.record ⟨permission, retryable, none⟩ content := by
  simp only [PolicyLookups.record, h, recordPolicyFailure]
  rcases policyFailure_priority h with rfl | hlt
  · rfl
  · rw [if_pos hlt]

section Files

variable {contents : String → ApiOutcome} {runTimestamp : String}

/-- A file, or a lookup that fails, outweighs an invalid payload before it. -/
theorem checkPolicyFiles_invalid {paths : List String} {permission retryable : Bool}
    (h : ∃ path ∈ paths,
      isFile (contents path) = true ∨ (policyFailure (contents path) true).isSome = true) :
    checkPolicyFiles contents runTimestamp paths ⟨permission, retryable, some .invalid⟩ =
      checkPolicyFiles contents runTimestamp paths ⟨permission, retryable, none⟩ := by
  induction paths generalizing permission retryable with
  | nil =>
    obtain ⟨path, hmem, -⟩ := h
    cases hmem
  | cons path rest ih =>
    simp only [checkPolicyFiles]
    split
    · rfl
    · next hfile =>
      cases hfailure : policyFailure (contents path) true with
      | some reason => rw [record_invalid hfailure]
      | none =>
        obtain ⟨other, hmem, hother⟩ := h
        have hrest : other ∈ rest := by
          rcases List.mem_cons.mp hmem with rfl | hmem
          · rcases hother with hother | hother
            · exact absurd hother hfile
            · rw [hfailure] at hother
              cases hother
          · exact hmem
        simp only [PolicyLookups.record, hfailure]
        exact ih ⟨other, hrest, hother⟩

/-- Without a file or a failure, what was seen before only gathers statuses. -/
theorem checkPolicyFiles_unfailing {paths : List String} (seen : PolicyLookups)
    (h : ∀ path ∈ paths,
      isFile (contents path) = false ∧ policyFailure (contents path) true = none) :
    checkPolicyFiles contents runTimestamp paths seen =
      .inr ⟨seen.sawPermissionDenied || paths.any fun path => permissionStatus (contents path),
        seen.sawRetryableError || paths.any fun path => retryableError (contents path),
        seen.otherFailure⟩ := by
  induction paths generalizing seen with
  | nil => simp only [checkPolicyFiles, List.any_nil, Bool.or_false]
  | cons path rest ih =>
    obtain ⟨hfile, hfailure⟩ := h path (List.mem_cons_self ..)
    simp only [checkPolicyFiles, hfile, Bool.false_eq_true, if_false]
    rw [ih _ fun other hother => h other (List.mem_cons_of_mem _ hother)]
    simp only [PolicyLookups.record, hfailure, List.any_cons, Bool.or_assoc]

end Files

theorem verdict_invalid_iff (permission retryable : Bool) (runTimestamp : String) :
    PolicyLookups.verdict ⟨permission, retryable, none⟩ runTimestamp =
        PolicyLookups.verdict ⟨permission, retryable, some .invalid⟩ runTimestamp ↔
      (permission || retryable) = true := by
  cases permission <;> cases retryable <;> simp [PolicyLookups.verdict, buildResult]

/-- The verdict after the lookups of all files. -/
def filesVerdict (contents : String → ApiOutcome) (runTimestamp : String) (paths : List String)
    (seen : PolicyLookups) : SecurityPolicyResult :=
  match checkPolicyFiles contents runTimestamp paths seen with
  | .inl result => result
  | .inr seen => seen.verdict runTimestamp

/-- An invalid payload before the lookups shows exactly where every lookup is quiet. -/
theorem filesVerdict_invalid_iff (contents : String → ApiOutcome) (runTimestamp : String)
    (paths : List String) :
    filesVerdict contents runTimestamp paths ⟨false, false, none⟩ =
        filesVerdict contents runTimestamp paths ⟨false, false, some .invalid⟩ ↔
      ∃ path ∈ paths, ¬ Quiet (contents path) := by
  by_cases hfails : ∃ path ∈ paths,
      isFile (contents path) = true ∨ (policyFailure (contents path) true).isSome = true
  · rw [filesVerdict, filesVerdict, checkPolicyFiles_invalid hfails]
    obtain ⟨path, hmem, hpath⟩ := hfails
    refine iff_of_true rfl ⟨path, hmem, ?_⟩
    rintro ⟨hfile, hfailure, -⟩
    rw [hfile, hfailure] at hpath
    simp at hpath
  · have hunfailing : ∀ path ∈ paths,
        isFile (contents path) = false ∧ policyFailure (contents path) true = none := by
      intro path hmem
      have hpath := not_or.mp fun hor => hfails ⟨path, hmem, hor⟩
      exact ⟨by simpa using hpath.1, by simpa using hpath.2⟩
    simp only [filesVerdict, checkPolicyFiles_unfailing _ hunfailing, Bool.false_or]
    rw [verdict_invalid_iff, Bool.or_eq_true, List.any_eq_true, List.any_eq_true]
    constructor
    · rintro (⟨path, hmem, hpermission⟩ | ⟨path, hmem, hretryable⟩)
      · refine ⟨path, hmem, fun hquiet => ?_⟩
        rw [hquiet.2.2.1] at hpermission
        cases hpermission
      · refine ⟨path, hmem, fun hquiet => ?_⟩
        rw [hquiet.2.2.2] at hretryable
        cases hretryable
    · rintro ⟨path, hmem, hloud⟩
      obtain ⟨hfile, hfailure⟩ := hunfailing path hmem
      cases hpermission : permissionStatus (contents path) with
      | true => exact .inl ⟨path, hmem, hpermission⟩
      | false =>
        cases hretryable : retryableError (contents path) with
        | true => exact .inr ⟨path, hmem, hretryable⟩
        | false => exact absurd ⟨hfile, hfailure, hpermission, hretryable⟩ hloud

theorem enabledBySetting_valid (h : enabledBySetting (.success 200 (some data) false) = true) :
    validPayload false (some data) = true := by
  cases hget : data.get "is_security_policy_enabled" with
  | none => simp [enabledBySetting, ApiOutcome.isOk, ApiOutcome.data, hget] at h
  | some value =>
    cases value with
    | bool enabled => simp only [validPayload, isObject_of_get hget, hget, Bool.and_self]
    | null | number | string | array | object =>
      simp [enabledBySetting, ApiOutcome.isOk, ApiOutcome.data, hget, Json.asBool] at h

theorem validPayload_object (detail : CachedRepoDetail) :
    validPayload false (some detail.object) = true := by
  simp only [validPayload, get_isSecurityPolicyEnabled]
  cases detail.isSecurityPolicyEnabled <;> rfl

/-- The evaluation of a public repository whose setting is not on, read from a lookup. -/
theorem evaluate_eq_filesVerdict {repo : Repository} (hpublic : repo.isPublic = true)
    (hsetting : enabledBySetting (.success 200 (some data) false) = false)
    (contents : String → ApiOutcome) (runTimestamp : String) :
    SecurityPolicy.evaluate true repo (.success 200 (some data) false) contents runTimestamp =
      filesVerdict contents runTimestamp securityPolicyPaths ⟨false, false,
        if validPayload false (some data) then none else some .invalid⟩ := by
  simp only [SecurityPolicy.evaluate, hpublic, hsetting, Bool.not_true, Bool.false_eq_true,
    if_false]
  rfl

/-- A payload of the wrong shape is forgotten by the cache. -/
theorem securityPolicy_served_iff (h : Keeps detail data) (repo : Repository)
    (contents : String → ApiOutcome) (runTimestamp : String) :
    SecurityPolicy.evaluate true repo detail.seeded.served contents runTimestamp =
        SecurityPolicy.evaluate true repo (.success 200 (some data) false) contents runTimestamp ↔
      (repo.isPublic = true → validPayload false (some data) = true ∨
        ∃ path ∈ securityPolicyPaths, ¬ Quiet (contents path)) := by
  have hserved : detail.seeded.served = .success 200 (some detail.object) false := rfl
  have hsetting : enabledBySetting (.success 200 (some detail.object) false) =
      enabledBySetting (.success 200 (some data) false) := by
    simp only [enabledBySetting, ApiOutcome.isOk, ApiOutcome.data, Option.bind_some,
      h.isSecurityPolicyEnabled]
  rw [hserved]
  cases hpublic : repo.isPublic with
  | false => simp [SecurityPolicy.evaluate, hpublic]
  | true =>
    cases henabled : enabledBySetting (.success 200 (some data) false) with
    | true =>
      rw [henabled] at hsetting
      simp [SecurityPolicy.evaluate, hpublic, hsetting, henabled, enabledBySetting_valid henabled]
    | false =>
      rw [henabled] at hsetting
      rw [evaluate_eq_filesVerdict hpublic hsetting, evaluate_eq_filesVerdict hpublic henabled,
        validPayload_object, if_pos rfl]
      cases hvalid : validPayload false (some data) with
      | true => simp
      | false => simpa using filesVerdict_invalid_iff contents runTimestamp securityPolicyPaths

/-! ## Branch protection -/

open BranchProtection

def notFound : ApiOutcome → Bool
  | .failure (some 404) _ _ => true
  | _ => false

/-- A failure that comes before a suspected lack of permission. -/
def outranks : ApiOutcome → Bool
  | .failure statusCode _ _ => statusCode = some 403 || statusCode = some 429
  | _ => false

/-- A missing endpoint decides unless the other one failed for a reason that outranks it. -/
def NotFoundDecides (rulesets legacy : ApiOutcome) : Prop :=
  (notFound rulesets = true ∧ outranks legacy = false) ∨
    (notFound legacy = true ∧ outranks rulesets = false)

instance (rulesets legacy : ApiOutcome) : Decidable (NotFoundDecides rulesets legacy) :=
  inferInstanceAs (Decidable (_ ∨ _))

/-- How an endpoint is classified with the access of an administrator and without it. -/
inductive Classified (outcome : ApiOutcome) : EndpointEvidence → EndpointEvidence → Prop where
  | notFound (h : notFound outcome = true) (h' : outranks outcome = false) :
      Classified outcome (.confirmedAbsent (some 404))
        (.indeterminate ⟨.permissionSuspected, some 404⟩)
  | outranking {failure : EndpointFailure} (h : notFound outcome = false)
      (h' : outranks outcome = true) (hprecedence : failure.precedence < 2) :
      Classified outcome (.indeterminate failure) (.indeterminate failure)
  | outranked {failure : EndpointFailure} (h : notFound outcome = false)
      (h' : outranks outcome = false) (hprecedence : 2 < failure.precedence) :
      Classified outcome (.indeterminate failure) (.indeterminate failure)
  | observed {signals : List HistorySignals} (h : notFound outcome = false)
      (h' : outranks outcome = false) : Classified outcome (.observed signals) (.observed signals)

theorem classified (outcome : ApiOutcome) (endpoint : ProtectionEndpoint) (defaultBranch : String) :
    Classified outcome (classifyEndpoint outcome endpoint defaultBranch .admin)
      (classifyEndpoint outcome endpoint defaultBranch .unknown) := by
  cases outcome with
  | success statusCode data truncated =>
    simp only [classifyEndpoint]
    split
    · exact .observed rfl rfl
    · exact .outranked rfl rfl (by simp [EndpointFailure.precedence])
  | failure statusCode error retryable =>
    simp only [classifyEndpoint]
    by_cases h403 : statusCode = some 403
    · subst h403
      exact .outranking rfl rfl (by decide)
    · by_cases h429 : statusCode = some 429
      · subst h429
        exact .outranking rfl rfl (by decide)
      · have hranks : outranks (.failure statusCode error retryable) = false := by
          simp [outranks, h403, h429]
        by_cases h404 : statusCode = some 404
        · subst h404
          exact .notFound rfl rfl
        · have hfound : notFound (.failure statusCode error retryable) = false := by
            unfold notFound
            split
            · next h =>
              cases h
              exact absurd rfl h404
            · rfl
          simp only [h403, h429, h404, if_false]
          split
          · exact .outranked hfound hranks (by simp [EndpointFailure.precedence])
          · exact .outranked hfound hranks (by simp [EndpointFailure.precedence])

section Outcomes

variable {rulesets legacy : ApiOutcome} {defaultBranch runTimestamp : String} {access : AdminAccess}
  {r l : EndpointEvidence}

theorem evaluateOutcomes_failure (hr : classifyEndpoint rulesets .rulesets defaultBranch access = r)
    (hl : classifyEndpoint legacy .legacy defaultBranch access = l) {failure : EndpointFailure}
    (h : firstOfLeastPrecedence ([r, l].filterMap EndpointEvidence.failure?) = some failure) :
    evaluateOutcomes rulesets legacy defaultBranch access runTimestamp =
      .unobservable defaultBranch failure.reason failure.httpStatus runTimestamp := by
  simp only [evaluateOutcomes, classifyEvidence, hr, hl, h, buildProtectionResult]

/-- Without a failed endpoint the verdict is definite. -/
theorem isObserved_evaluateOutcomes
    (hr : classifyEndpoint rulesets .rulesets defaultBranch access = r)
    (hl : classifyEndpoint legacy .legacy defaultBranch access = l)
    (h : [r, l].filterMap EndpointEvidence.failure? = []) :
    (evaluateOutcomes rulesets legacy defaultBranch access runTimestamp).isObserved = true := by
  simp only [evaluateOutcomes, classifyEvidence, hr, hl, h, firstOfLeastPrecedence]
  split
  · simp only [buildProtectionResult, fromHistorySignals]
    split <;> rfl
  · split <;> rfl

theorem failure_indeterminate (failure : EndpointFailure) :
    (EndpointEvidence.indeterminate failure).failure? = some failure := rfl

theorem failures_left (hl : l.failure? = none) (failure : EndpointFailure) :
    firstOfLeastPrecedence ([.indeterminate failure, l].filterMap EndpointEvidence.failure?) =
      some failure := by
  rw [List.filterMap_cons_some (failure_indeterminate failure), List.filterMap_cons_none hl]
  rfl

theorem failures_right (hr : r.failure? = none) (failure : EndpointFailure) :
    firstOfLeastPrecedence ([r, .indeterminate failure].filterMap EndpointEvidence.failure?) =
      some failure := by
  rw [List.filterMap_cons_none hr, List.filterMap_cons_some (failure_indeterminate failure)]
  rfl

theorem failures_both (failure other : EndpointFailure) :
    firstOfLeastPrecedence ([.indeterminate failure, .indeterminate other].filterMap
      EndpointEvidence.failure?) =
        some (if other.precedence < failure.precedence then other else failure) := by
  rw [List.filterMap_cons_some (failure_indeterminate failure),
    List.filterMap_cons_some (failure_indeterminate other), List.filterMap_nil]
  simp only [firstOfLeastPrecedence]
  split <;> rfl

end Outcomes

/-- The failure of an endpoint that is not there, where access is not known. -/
def suspected : EndpointFailure := ⟨.permissionSuspected, some 404⟩

theorem precedence_suspected : suspected.precedence = 2 := rfl

/-- Losing the access of an administrator shows exactly where a missing endpoint decides. -/
theorem evaluateOutcomes_access_iff (rulesets legacy : ApiOutcome)
    (defaultBranch runTimestamp : String) :
    evaluateOutcomes rulesets legacy defaultBranch .unknown runTimestamp =
        evaluateOutcomes rulesets legacy defaultBranch .admin runTimestamp ↔
      ¬ NotFoundDecides rulesets legacy := by
  have hr := classified rulesets .rulesets defaultBranch
  have hl := classified legacy .legacy defaultBranch
  generalize har : classifyEndpoint rulesets .rulesets defaultBranch .admin = r at hr
  generalize hur : classifyEndpoint rulesets .rulesets defaultBranch .unknown = r' at hr
  generalize hal : classifyEndpoint legacy .legacy defaultBranch .admin = l at hl
  generalize hul : classifyEndpoint legacy .legacy defaultBranch .unknown = l' at hl
  have hsame : r = r' → l = l' →
      evaluateOutcomes rulesets legacy defaultBranch .unknown runTimestamp =
        evaluateOutcomes rulesets legacy defaultBranch .admin runTimestamp := by
    rintro rfl rfl
    simp only [evaluateOutcomes, classifyEvidence, har, hur, hal, hul]
  -- A definite verdict, or another reason, differs from the suspicion.
  have hdefinite : ∀ {failure : EndpointFailure}, firstOfLeastPrecedence
      ([r', l'].filterMap EndpointEvidence.failure?) = some failure →
        [r, l].filterMap EndpointEvidence.failure? = [] →
          evaluateOutcomes rulesets legacy defaultBranch .unknown runTimestamp ≠
            evaluateOutcomes rulesets legacy defaultBranch .admin runTimestamp := by
    intro failure hfailure hnone heq
    have hobserved : (evaluateOutcomes rulesets legacy defaultBranch .admin
        runTimestamp).isObserved = true := isObserved_evaluateOutcomes har hal hnone
    rw [← heq, evaluateOutcomes_failure hur hul hfailure] at hobserved
    cases hobserved
  have hreason : ∀ {failure other : EndpointFailure}, firstOfLeastPrecedence
      ([r', l'].filterMap EndpointEvidence.failure?) = some failure →
        firstOfLeastPrecedence ([r, l].filterMap EndpointEvidence.failure?) = some other →
          (evaluateOutcomes rulesets legacy defaultBranch .unknown runTimestamp =
            evaluateOutcomes rulesets legacy defaultBranch .admin runTimestamp ↔
              failure = other) := by
    intro failure other hfailure hother
    rw [evaluateOutcomes_failure hur hul hfailure, evaluateOutcomes_failure har hal hother]
    obtain ⟨reason, httpStatus⟩ := failure
    obtain ⟨reason', httpStatus'⟩ := other
    simp
  cases hr with
  | notFound hmissing hrank =>
    cases hl with
    | notFound hmissing' hrank' =>
      refine iff_of_false (hdefinite (failures_both suspected suspected) rfl) ?_
      exact not_not.mpr (.inl ⟨hmissing, hrank'⟩)
    | @outranking failure hfound' hrank' hprecedence =>
      have hboth := failures_both suspected failure
      rw [precedence_suspected, if_pos hprecedence] at hboth
      refine iff_of_true ((hreason hboth (failures_right rfl _)).mpr rfl) ?_
      simp [NotFoundDecides, hfound', hrank']
    | @outranked failure hfound' hrank' hprecedence =>
      have hboth := failures_both suspected failure
      rw [precedence_suspected, if_neg (by omega)] at hboth
      refine iff_of_false (fun heq => ?_) (not_not.mpr (.inl ⟨hmissing, hrank'⟩))
      obtain rfl := (hreason hboth (failures_right rfl _)).mp heq
      exact absurd hprecedence (by decide)
    | observed hfound' hrank' =>
      refine iff_of_false (hdefinite (failures_left rfl suspected) rfl) ?_
      exact not_not.mpr (.inl ⟨hmissing, hrank'⟩)
  | @outranking failure hfound hrank hprecedence =>
    refine iff_of_true ?_ ?_
    · cases hl with
      | notFound hmissing' hrank' =>
        have hboth := failures_both failure suspected
        rw [precedence_suspected, if_neg (by omega)] at hboth
        exact (hreason hboth (failures_left rfl _)).mpr rfl
      | outranking | outranked | observed => exact hsame rfl rfl
    · simp [NotFoundDecides, hfound, hrank]
  | @outranked failure hfound hrank hprecedence =>
    cases hl with
    | notFound hmissing' hrank' =>
      have hboth := failures_both failure suspected
      rw [precedence_suspected, if_pos hprecedence] at hboth
      refine iff_of_false (fun heq => ?_) (not_not.mpr (.inr ⟨hmissing', hrank⟩))
      obtain rfl := (hreason hboth (failures_left rfl _)).mp heq
      exact absurd hprecedence (by decide)
    | outranking hfound' | outranked hfound' | observed hfound' =>
      exact iff_of_true (hsame rfl rfl) (by simp [NotFoundDecides, hfound, hfound'])
  | observed hfound hrank =>
    cases hl with
    | notFound hmissing' hrank' =>
      refine iff_of_false (hdefinite (failures_right rfl suspected) rfl) ?_
      exact not_not.mpr (.inr ⟨hmissing', hrank⟩)
    | outranking hfound' | outranked hfound' | observed hfound' =>
      exact iff_of_true (hsame rfl rfl) (by simp [NotFoundDecides, hfound, hfound'])

theorem evaluateOutcomes_notAdmin (rulesets legacy : ApiOutcome)
    (defaultBranch runTimestamp : String) :
    evaluateOutcomes rulesets legacy defaultBranch .notAdmin runTimestamp =
      evaluateOutcomes rulesets legacy defaultBranch .unknown runTimestamp := by
  have hclassify : ∀ outcome endpoint, classifyEndpoint outcome endpoint defaultBranch .notAdmin =
      classifyEndpoint outcome endpoint defaultBranch .unknown := by
    intro outcome endpoint
    cases outcome <;> rfl
  simp only [evaluateOutcomes, classifyEvidence, hclassify]

/-- The access of an administrator is forgotten by the cache. -/
theorem branchProtection_served_iff (data : Json) (detail : CachedRepoDetail) (repo : Repository)
    (rulesets legacy : ApiOutcome) (runTimestamp : String) :
    BranchProtection.evaluate true repo rulesets legacy detail.seeded.served runTimestamp =
        BranchProtection.evaluate true repo rulesets legacy (.success 200 (some data) false)
          runTimestamp ↔
      (repoAdminSignal (.success 200 (some data) false) = .admin →
        ¬ NotFoundDecides rulesets legacy) := by
  have hunknown : repoAdminSignal detail.seeded.served = .unknown := by
    have hpermissions := get_permissions detail
    simp only [repoAdminSignal, CachedResult.served, CachedRepoDetail.seeded, ApiOutcome.isOk,
      ApiOutcome.data, Option.bind_some, hpermissions]
    rfl
  simp only [BranchProtection.evaluate, hunknown, Bool.not_true, Bool.false_eq_true, if_false]
  cases repoAdminSignal (.success 200 (some data) false) with
  | admin => simpa using evaluateOutcomes_access_iff rulesets legacy repo.defaultBranch runTimestamp
  | notAdmin => simp [evaluateOutcomes_notAdmin]
  | unknown => simp

end Details

/-! ## All evaluations -/

open SecurityPolicy BranchProtection in
/--
What a repository whose name can be put into a path asks of its details: they are an object that
was answered with 200; a missing endpoint does not decide for an administrator; and a public
repository has a setting of the right shape, or a lookup of its files that is not quiet.
-/
def RepositoryReads.Transparent (reads : RepositoryReads) (statusCode : UInt16) (data : Json) :
    Prop :=
  reads.validName = true →
    statusCode = 200 ∧ data.isObject = true ∧
      (repoAdminSignal (.success statusCode (some data) false) = .admin →
        ¬ NotFoundDecides reads.rulesets reads.legacy) ∧
      (reads.repo.isPublic = true → validPayload false (some data) = true ∨
        ∃ path ∈ securityPolicyPaths, ¬ Quiet (reads.contents path))

/-- The evaluations on details from the cache are those on the details exactly then. -/
theorem cached_details_transparent_iff (S : DetailSource) (reads : RepositoryReads)
    {cached : CachedResult} {data : Json} {now : ℤ} {detail : CachedRepoDetail}
    {outcome : ApiOutcome} (hdata : cached.data = some data)
    (hexported : cached.exported now = some detail) (hserved : FromCache S detail outcome) :
    reads.evaluate outcome = reads.evaluate cached.served ↔
      reads.Transparent cached.statusCode data := by
  have hkeeps : Keeps detail data := detailFields_exported hdata hexported
  have hfresh : cached.served = .success cached.statusCode (some data) false := by
    rw [CachedResult.served, hdata]
  rw [hserved.outcome, hfresh]
  generalize cached.statusCode = statusCode
  cases hvalid : reads.validName with
  | false =>
    refine iff_of_true ?_ fun h => ?_
    · simp only [RepositoryReads.evaluate, hvalid]
      rfl
    · rw [hvalid] at h
      cases h
  | true =>
    have hscanning := @secretScanning_served_iff data statusCode detail hkeeps reads.repo
      reads.alerts reads.orgSummary reads.runTimestamp
    have hpolicy := securityPolicy_served_iff hkeeps reads.repo reads.contents reads.runTimestamp
    have hbranch := branchProtection_served_iff data detail reads.repo reads.rulesets reads.legacy
      reads.runTimestamp
    constructor
    · intro heq _
      simp only [RepositoryReads.evaluate, hvalid, Evaluations.mk.injEq] at heq
      obtain ⟨heqPolicy, heqScanning, -, heqBranch⟩ := heq
      obtain ⟨rfl, hobject⟩ := hscanning.mp heqScanning
      exact ⟨rfl, hobject, hbranch.mp heqBranch, hpolicy.mp heqPolicy⟩
    · intro h
      obtain ⟨rfl, hobject, hadmin, hpublic⟩ := h hvalid
      simp only [RepositoryReads.evaluate, hvalid, Evaluations.mk.injEq]
      exact ⟨hpolicy.mpr hpublic, hscanning.mpr ⟨rfl, hobject⟩, dependabot_served hkeeps ..,
        hbranch.mpr hadmin⟩

/-! ## A repository of an administrator -/

section Samples

def samplePrivateRepository : Repository where
  id := "1"
  nodeId := none
  name := "repo"
  visibility := .private
  language := none
  defaultBranch := "main"
  archived := false
  inventoryKey := "1"
  updatedAt := none
  hasIssues := false
  pushedAt := none
  createdAt := none
  description := none
  fork := false
  isEmpty := false
  htmlUrl := none
  topics := []
  licenseSpdx := none

def sampleNotFound : ApiOutcome := .failure (some 404) "Not Found" false

/-- Neither rulesets nor a legacy protection are there. -/
def sampleReads : RepositoryReads where
  validName := true
  repo := samplePrivateRepository
  rulesets := sampleNotFound
  legacy := sampleNotFound
  alerts := sampleNotFound
  contents _ := sampleNotFound
  orgSummary := none
  runTimestamp := "2026-01-01T00:00:00Z"

def sampleCached (data : Json) : CachedResult := ⟨200, some data, some "etag", false, 0⟩

def sampleDetail : CachedRepoDetail := ⟨"main", none, none, none, 0, some "etag", 0⟩

def sampleAdmin (admin : Bool) : Json := .object [("permissions", .object [("admin", .bool admin)])]

theorem exported_sampleAdmin (admin : Bool) :
    (sampleCached (sampleAdmin admin)).exported 0 = some sampleDetail := rfl

/-- The details are seeded, and a call finds them. -/
theorem fromCache_sample :
    FromCache sampleDetailSource sampleDetail sampleDetail.seeded.served := by
  have hname : sampleDetailSource.sanitizePathSegment "repo" = .ok "repo" := rfl
  have hentry : (DetailClient.init ((∅ : KeyMap CachedResult).insert "repo" sampleDetail.seeded)
      0).repoDetailCache["repo"]? = some sampleDetail.seeded := KeyMap.getElem?_insert_same _ _ _
  refine .fresh hname hentry ?_
  simp only [DetailClient.repoDetails, hname, hentry]
  rfl

/-- From the cache, the repository that nothing protects can no longer be told from a hidden one. -/
theorem cached_details_lose_access :
    ∃ data detail outcome, (sampleCached data).exported 0 = some detail ∧
      FromCache sampleDetailSource detail outcome ∧
      (sampleReads.evaluate (sampleCached data).served).branchProtection =
        .unprotected "main" (.absent true (some 404)) "2026-01-01T00:00:00Z" ∧
      (sampleReads.evaluate outcome).branchProtection =
        .unobservable "main" .permissionSuspected (some 404) "2026-01-01T00:00:00Z" :=
  ⟨sampleAdmin true, sampleDetail, _, exported_sampleAdmin true, fromCache_sample, by decide,
    by decide⟩

theorem cached_details_transparent_sample :
    sampleReads.evaluate sampleDetail.seeded.served =
      sampleReads.evaluate (sampleCached (sampleAdmin false)).served := by
  refine (cached_details_transparent_iff sampleDetailSource sampleReads rfl
    (exported_sampleAdmin false) fromCache_sample).mpr ?_
  intro _
  refine ⟨rfl, rfl, ?_, ?_⟩
  · intro h
    cases h
  · intro h
    cases h

end Samples

end GhReport.Collector
