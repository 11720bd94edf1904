import GhReport.Collector.Answers
import GhReport.Collector.Codeowners
import GhReport.Collector.Dependabot
import GhReport.Collector.ProtectionVerdict
import GhReport.Collector.SecurityPolicy

/-! # Failed reads

An evaluation counts against a repository only when each of its reads was
answered definitively. Otherwise it passes on a definitive answer, or reports the
reason of one of the reads that failed.
-/

namespace GhReport.Collector

open Domain GitHub
open Event (IndeterminateReason DependabotStatus)

/-! ## Answers -/

theorem Answer.permissionStatus_failure (answer : Answer)
    (h : SecurityPolicy.permissionStatus answer.outcome = true) : answer.outcome.isOk = false := by
  cases hok : answer.outcome.isOk with
  | false => rfl
  | true =>
    have hstatus := answer.ok_status hok
    simp only [SecurityPolicy.permissionStatus, Bool.or_eq_true, decide_eq_true_eq] at h
    rcases h with h | h
    · exact absurd (hstatus _ h).2 (by decide)
    · exact absurd (hstatus _ h).2 (by decide)

/-- A success with a payload of the expected shape, or a missing entry of the contents. -/
def definitiveAnswer (contents : Bool) : ApiOutcome → Bool
  | .success _ data _ => SecurityPolicy.validPayload contents data
  | .failure statusCode _ _ => contents && statusCode = some 404

/-! ## Verdicts -/

/-- What a verdict rests on. -/
inductive Standing (ι ρ : Type) where
  | failing
  | passing (support : List ι)
  | unknown (reason : ρ)
  | notApplicable

/--
A verdict that fails rests on definitive answers only, one that passes on those it names, and one
that is unknown has the reason of a read that failed; the others were made without a read.
-/
def FailsClosed {ι ρ : Type} (reads : List ι) (definitive : ι → Prop) (reason : ι → Option ρ) :
    Standing ι ρ → Prop
  | .failing => reads ≠ [] ∧ ∀ r ∈ reads, definitive r
  | .passing support => support ≠ [] ∧ ∀ r ∈ support, r ∈ reads ∧ definitive r
  | .unknown why => reads = [] ∨ ∃ r ∈ reads, ¬ definitive r ∧ reason r = some why
  | .notApplicable => reads = []

/-- The reads that are made one after another, up to the first one that settles it. -/
def consulted (settles : String → Bool) : List String → List String
  | [] => []
  | path :: rest => path :: if settles path then [] else consulted settles rest

theorem consulted_subset (settles : String → Bool) (paths : List String) :
    ∀ path ∈ consulted settles paths, path ∈ paths := by
  induction paths with
  | nil => nofun
  | cons first rest ih =>
    intro path hpath
    rcases List.mem_cons.mp hpath with rfl | hpath
    · exact List.mem_cons_self ..
    · split at hpath
      · cases hpath
      · exact List.mem_cons_of_mem _ (ih path hpath)

/-! ## Security policy -/

namespace SecurityPolicy

theorem policyFailure_eq_none_iff (outcome : ApiOutcome) (contents : Bool) :
    policyFailure outcome contents = none ↔ definitiveAnswer contents outcome = true := by
  cases outcome with
  | success statusCode data truncated =>
    unfold policyFailure definitiveAnswer
    dsimp only
    cases validPayload contents data <;> simp
  | failure statusCode error retryable =>
    unfold policyFailure definitiveAnswer
    dsimp only
    by_cases h404 : statusCode = some 404
    · subst h404
      cases contents with
      | true => simp
      | false => cases retryable <;> simp
    · have hnot : ¬ (statusCode = some 404 ∧ contents = true) := fun h => h404 h.1
      rw [if_neg hnot]
      have hfalse : (contents && decide (statusCode = some 404)) = false := by simp [h404]
      rw [hfalse]
      split
      · simp
      · split
        · simp
        · split <;> simp

/-- A failure with the status of a missing permission is given that reason. -/
theorem policyFailure_of_permission (answer : Answer) (contents : Bool)
    (h : permissionStatus answer.outcome = true) :
    policyFailure answer.outcome contents = some .permissionDenied := by
  have hok := answer.permissionStatus_failure h
  cases houtcome : answer.outcome with
  | success statusCode data truncated =>
    rw [houtcome] at hok
    cases hok
  | failure statusCode error retryable =>
    rw [houtcome] at h
    simp only [permissionStatus, Bool.or_eq_true, decide_eq_true_eq] at h
    exact if_pos h

/-- A retryable failure other than a rate limit is given the transient reason. -/
theorem policyFailure_of_retryable (answer : Answer) (contents : Bool)
    (h : retryableError answer.outcome = true) :
    policyFailure answer.outcome contents = some .transient := by
  have hretryable := answer.retryable_status
  cases houtcome : answer.outcome with
  | success statusCode data truncated =>
    rw [houtcome] at h
    cases h
  | failure statusCode error retryable =>
    rw [houtcome] at h hretryable
    simp only [retryableError, ApiOutcome.isRetryable, ApiOutcome.statusCode, Bool.and_eq_true,
      bne_iff_ne, ne_eq] at h hretryable
    obtain ⟨rfl, h429⟩ := h
    have hstatus := hretryable rfl
    have hne : ∀ s, s ∉ [429, 500, 502, 503, 504] → statusCode ≠ some s :=
      fun s hs e => hs (hstatus s e)
    have h401 := hne 401 (by decide)
    have h403 := hne 403 (by decide)
    have h404 := hne 404 (by decide)
    simp [policyFailure, h401, h403, h404, h429]

inductive PolicyRead where
  | details
  | file (path : String)
deriving DecidableEq

section Evaluation

variable (repoDetails : Answer) (contents : String → Answer)

def PolicyRead.isContents : PolicyRead → Bool
  | details => false
  | file _ => true

def PolicyRead.answer : PolicyRead → Answer
  | details => repoDetails
  | file path => contents path

def PolicyRead.definitive (r : PolicyRead) : Prop :=
  definitiveAnswer r.isContents (r.answer repoDetails contents).outcome = true

def PolicyRead.failure (r : PolicyRead) : Option IndeterminateReason :=
  policyFailure (r.answer repoDetails contents).outcome r.isContents

theorem PolicyRead.failure_eq_none_iff (r : PolicyRead) :
    r.failure repoDetails contents = none ↔ r.definitive repoDetails contents :=
  policyFailure_eq_none_iff ..

/-- The reads of an evaluation: none where it does not apply, the details, and then the files. -/
def consultedReads (validName : Bool) (repo : Repository) : List PolicyRead :=
  if !validName || !repo.isPublic then []
  else if enabledBySetting repoDetails.outcome then [.details]
  else .details ::
    (consulted (fun path => isFile (contents path).outcome) securityPolicyPaths).map .file

def standing : SecurityPolicyResult → Standing PolicyRead IndeterminateReason
  | .enabledBySetting _ => .passing [.details]
  | .enabledByFile path _ => .passing [.file path.val]
  | .absent _ => .failing
  | .unobservable reason _ => .unknown reason
  | .notApplicable _ => .notApplicable

/-- What the lookups have kept of the reads so far. -/
structure PolicyLookups.Reflects (seen : PolicyLookups) (reads : List PolicyRead) : Prop where
  denied : seen.sawPermissionDenied = true →
    ∃ r ∈ reads, r.failure repoDetails contents = some .permissionDenied
  retryable : seen.sawRetryableError = true →
    ∃ r ∈ reads, r.failure repoDetails contents = some .transient
  failure : ∀ reason, seen.otherFailure = some reason →
    ∃ r ∈ reads, r.failure repoDetails contents = some reason
  definitive : seen.otherFailure = none → ∀ r ∈ reads, r.failure repoDetails contents = none

end Evaluation

variable {repoDetails : Answer} {contents : String → Answer}

theorem recordPolicyFailure_cases (current : Option IndeterminateReason)
    (next : IndeterminateReason) :
    recordPolicyFailure current next = some next ∨
      recordPolicyFailure current next = current ∧ current ≠ none := by
  unfold recordPolicyFailure
  cases current with
  | none => exact .inl rfl
  | some previous =>
    dsimp only
    split
    · exact .inl rfl
    · exact .inr ⟨rfl, nofun⟩

theorem PolicyLookups.reflects_details :
    PolicyLookups.Reflects repoDetails contents ⟨permissionStatus repoDetails.outcome,
      retryableError repoDetails.outcome, policyFailure repoDetails.outcome false⟩ [.details] where
  denied h := ⟨.details, List.mem_singleton_self _, policyFailure_of_permission repoDetails false h⟩
  retryable h :=
    ⟨.details, List.mem_singleton_self _, policyFailure_of_retryable repoDetails false h⟩
  failure reason h := ⟨.details, List.mem_singleton_self _, h⟩
  definitive h r hr := by
    obtain rfl := List.mem_singleton.mp hr
    exact h

/-- One more lookup. -/
theorem PolicyLookups.Reflects.record {seen : PolicyLookups} {reads : List PolicyRead}
    (h : seen.Reflects repoDetails contents reads) (path : String) :
    (seen.record (contents path).outcome).Reflects repoDetails contents
      (reads ++ [.file path]) := by
  have hold : ∀ reason, (∃ r ∈ reads, r.failure repoDetails contents = some reason) →
      ∃ r ∈ reads ++ [.file path], r.failure repoDetails contents = some reason :=
    fun reason ⟨r, hr, hreason⟩ => ⟨r, List.mem_append_left _ hr, hreason⟩
  have hnew : PolicyRead.file path ∈ reads ++ [.file path] :=
    List.mem_append_right _ (List.mem_singleton_self _)
  constructor
  · intro hdenied
    rcases Bool.or_eq_true_iff.mp hdenied with hdenied | hdenied
    · exact hold _ (h.denied hdenied)
    · exact ⟨_, hnew, policyFailure_of_permission (contents path) true hdenied⟩
  · intro hretryable
    rcases Bool.or_eq_true_iff.mp hretryable with hretryable | hretryable
    · exact hold _ (h.retryable hretryable)
    · exact ⟨_, hnew, policyFailure_of_retryable (contents path) true hretryable⟩
  · intro reason hreason
    unfold PolicyLookups.record at hreason
    dsimp only at hreason
    split at hreason
    · next latest hfailure =>
      rcases recordPolicyFailure_cases seen.otherFailure latest with hlatest | ⟨hcurrent, -⟩
      · rw [hlatest] at hreason
        exact ⟨_, hnew, hfailure.trans hreason⟩
      · rw [hcurrent] at hreason
        exact hold _ (h.failure reason hreason)
    · exact hold _ (h.failure reason hreason)
  · intro hnone r hr
    unfold PolicyLookups.record at hnone
    dsimp only at hnone
    split at hnone
    · next latest hfailure =>
      rcases recordPolicyFailure_cases seen.otherFailure latest with hlatest | ⟨hcurrent, hne⟩
      · rw [hlatest] at hnone
        cases hnone
      · rw [hcurrent] at hnone
        exact absurd hnone hne
    · next hfailure =>
      rcases List.mem_append.mp hr with hr | hr
      · exact h.definitive hnone r hr
      · obtain rfl := List.mem_singleton.mp hr
        exact hfailure

/-- The lookups end at a file that is there, or have kept what all of them saw. -/
theorem checkPolicyFiles_spec (ts : String) (paths : List String) (seen : PolicyLookups)
    (reads : List PolicyRead) (h : seen.Reflects repoDetails contents reads) :
    let files := consulted (fun path => isFile (contents path).outcome) paths
    match checkPolicyFiles (fun path => (contents path).outcome) ts paths seen with
    | .inl result => ∃ path ∈ files, isFile (contents path).outcome = true ∧
        result = buildResult .pass .file (some path) ts
    | .inr seen' => seen'.Reflects repoDetails contents (reads ++ files.map .file) := by
  induction paths generalizing seen reads with
  | nil =>
    simpa only [checkPolicyFiles, consulted, List.map_nil, List.append_nil] using h
  | cons path rest ih =>
    dsimp only [checkPolicyFiles, consulted]
    by_cases hfile : isFile (contents path).outcome = true
    · rw [if_pos hfile]
      exact ⟨path, List.mem_cons_self .., hfile, rfl⟩
    · rw [if_neg hfile, if_neg hfile]
      have hrest := ih _ _ (h.record path)
      dsimp only at hrest
      split at hrest
      · next =>
        obtain ⟨file, hmem, hrest⟩ := hrest
        exact ⟨file, List.mem_cons_of_mem _ hmem, hrest⟩
      · next =>
        simpa only [List.map_cons, List.append_assoc, List.singleton_append] using hrest

theorem PolicyLookups.Reflects.verdict {seen : PolicyLookups} {reads : List PolicyRead}
    (h : seen.Reflects repoDetails contents reads) (hne : reads ≠ []) (ts : String) :
    FailsClosed reads (PolicyRead.definitive repoDetails contents)
      (PolicyRead.failure repoDetails contents) (standing (seen.verdict ts)) := by
  have hfailed : ∀ {reason}, (∃ r ∈ reads, r.failure repoDetails contents = some reason) →
      ∃ r ∈ reads, ¬ r.definitive repoDetails contents ∧
        r.failure repoDetails contents = some reason := by
    rintro reason ⟨r, hr, hreason⟩
    refine ⟨r, hr, fun hdef => ?_, hreason⟩
    rw [← PolicyRead.failure_eq_none_iff, hreason] at hdef
    cases hdef
  unfold PolicyLookups.verdict
  split
  · next hdenied => exact .inr (hfailed (h.denied hdenied))
  · split
    · next hretryable => exact .inr (hfailed (h.retryable hretryable.1))
    · cases hother : seen.otherFailure with
      | some reason => exact .inr (hfailed (h.failure reason hother))
      | none =>
        refine ⟨hne, fun r hr => ?_⟩
        rw [← PolicyRead.failure_eq_none_iff]
        exact h.definitive hother r hr

theorem get_isObject {data value : Json} {key : String} (h : data.get key = some value) :
    data.isObject = true := by
  cases data <;> first | rfl | cases h

theorem definitive_of_isFile {path : String} (h : isFile (contents path).outcome = true) :
    PolicyRead.definitive repoDetails contents (.file path) := by
  unfold PolicyRead.definitive
  dsimp only [PolicyRead.answer, PolicyRead.isContents]
  cases houtcome : (contents path).outcome with
  | failure statusCode error retryable =>
    rw [houtcome] at h
    cases h
  | success statusCode data truncated =>
    rw [houtcome] at h
    have htype : (data.bind (Json.get "type")).bind Json.asStr = some "file" :=
      decide_eq_true_eq.mp h
    cases data with
    | none => cases htype
    | some data =>
      rw [Option.bind_some] at htype
      unfold definitiveAnswer validPayload
      dsimp only
      split
      · rfl
      · next hdata =>
        cases hdata
        rw [htype]
        rfl
      · next hcontents _ => cases hcontents
      · next hdata => cases hdata

theorem definitive_of_enabledBySetting (h : enabledBySetting repoDetails.outcome = true) :
    PolicyRead.definitive repoDetails contents .details := by
  unfold PolicyRead.definitive
  dsimp only [PolicyRead.answer, PolicyRead.isContents]
  cases houtcome : repoDetails.outcome with
  | failure statusCode error retryable =>
    rw [houtcome] at h
    cases h
  | success statusCode data truncated =>
    rw [houtcome] at h
    have hsetting : ((data.bind (Json.get "is_security_policy_enabled")).bind
        Json.asBool).getD false = true := h
    cases data with
    | none => cases hsetting
    | some data =>
      rw [Option.bind_some] at hsetting
      cases hget : data.get "is_security_policy_enabled" with
      | none =>
        rw [hget] at hsetting
        cases hsetting
      | some value =>
        rw [hget] at hsetting
        cases value <;> simp [Json.asBool] at hsetting
        simp [definitiveAnswer, validPayload, get_isObject hget, hget]

theorem securityPolicyPaths_ne_empty : ∀ path ∈ securityPolicyPaths, path ≠ "" := by decide

theorem buildResult_file {path : String} (h : path ≠ "") (ts : String) :
    buildResult .pass .file (some path) ts = .enabledByFile ⟨path, h⟩ ts := by
  simp [buildResult, securityPolicyPathNew, h]

theorem evaluate_failsClosed (validName : Bool) (repo : Repository) (repoDetails : Answer)
    (contents : String → Answer) (ts : String) :
    FailsClosed (consultedReads repoDetails contents validName repo)
      (PolicyRead.definitive repoDetails contents) (PolicyRead.failure repoDetails contents)
      (standing (evaluate validName repo repoDetails.outcome (fun path => (contents path).outcome)
        ts)) := by
  unfold evaluate consultedReads
  cases validName with
  | false => exact .inl rfl
  | true =>
    cases hpublic : repo.isPublic with
    | false => exact rfl
    | true =>
      simp only [Bool.not_true, Bool.false_or, Bool.false_eq_true, if_false]
      by_cases hsetting : enabledBySetting repoDetails.outcome = true
      · rw [if_pos hsetting, if_pos hsetting]
        refine ⟨List.cons_ne_nil _ _, fun r hr => ⟨hr, ?_⟩⟩
        obtain rfl := List.mem_singleton.mp hr
        exact definitive_of_enabledBySetting hsetting
      · rw [if_neg hsetting, if_neg hsetting]
        have hdetails : PolicyLookups.Reflects repoDetails contents _ [.details] :=
          PolicyLookups.reflects_details
        have hfiles := checkPolicyFiles_spec ts securityPolicyPaths _ _ hdetails
        split
        · next hresult =>
          rw [hresult] at hfiles
          obtain ⟨path, hmem, hfile, rfl⟩ := hfiles
          have hne : path ≠ "" := securityPolicyPaths_ne_empty path (consulted_subset _ _ path hmem)
          rw [buildResult_file hne]
          refine ⟨List.cons_ne_nil _ _, fun r hr => ?_⟩
          obtain rfl := List.mem_singleton.mp hr
          exact ⟨List.mem_cons_of_mem _ (List.mem_map_of_mem hmem), definitive_of_isFile hfile⟩
        · next hseen =>
          rw [hseen] at hfiles
          exact hfiles.verdict (List.cons_ne_nil _ _) ts

end SecurityPolicy

/-! ## CODEOWNERS -/

namespace Codeowners

section Evaluation

variable (contents : String → ApiOutcome)

def settles (path : String) : Bool :=
  match probePath (contents path) with
  | .found _ | .indeterminate _ => true
  | .notFound => false

def failure (path : String) : Option IndeterminateReason :=
  match probePath (contents path) with
  | .indeterminate reason => some reason
  | .found _ | .notFound => none

def definitive (path : String) : Prop := definitiveAnswer true (contents path) = true

def consultedReads (validName : Bool) : List String :=
  if !validName then [] else consulted (settles contents) (candidates.map Prod.fst)

end Evaluation

def standing : CodeownersResult → Standing String IndeterminateReason
  | .conforming _ _ => .passing [conformingPath]
  | .nonConforming .root _ _ => .passing [nonConformingPath]
  | .nonConforming .docs _ _ => .passing [docsPath]
  | .absent _ => .failing
  | .unobservable reason _ => .unknown reason

variable {contents : String → ApiOutcome}

theorem validPayload_iff (data : Json) :
    SecurityPolicy.validPayload true (some data) = true ↔
      (data.get "type").bind Json.asStr = some "file" ∨ isOtherEntry data = true := by
  cases data with
  | array items => simp [SecurityPolicy.validPayload, isOtherEntry, Json.asArray]
  | object entries =>
    cases htype : ((Json.object entries).get "type").bind Json.asStr with
    | none => simp [SecurityPolicy.validPayload, isOtherEntry, Json.asArray, htype]
    | some type =>
      simp [SecurityPolicy.validPayload, isOtherEntry, Json.asArray, htype]
      tauto
  | null | bool _ | number _ | string _ =>
    simp [SecurityPolicy.validPayload, isOtherEntry, Json.asArray, Json.get]

theorem probePath_success (statusCode : UInt16) (data : Option Json) (truncated : Bool) :
    (∃ reason, probePath (.success statusCode data truncated) = .indeterminate reason) ↔
      definitiveAnswer true (.success statusCode data truncated) = false := by
  unfold definitiveAnswer
  cases data with
  | none => exact ⟨fun _ => rfl, fun _ => ⟨.invalid, rfl⟩⟩
  | some data =>
    dsimp only
    rw [Bool.eq_false_iff, Ne, validPayload_iff]
    unfold probePath isFileResponse
    simp only [ApiOutcome.isOk, ApiOutcome.data, Option.bind_some, Bool.true_and, Option.any_some]
    by_cases hfile : (data.get "type").bind Json.asStr = some "file"
    · simp [hfile]
    · by_cases hother : isOtherEntry data = true
      · simp [hfile, hother]
      · simp [hfile, hother]

theorem probePath_failure (statusCode : Option UInt16) (error : String) (retryable : Bool) :
    if statusCode = some 404 then probePath (.failure statusCode error retryable) = .notFound
    else ∃ reason, probePath (.failure statusCode error retryable) = .indeterminate reason := by
  unfold probePath
  simp only [isFileResponse, ApiOutcome.isOk, Bool.false_and, Bool.false_eq_true, if_false]
  by_cases h404 : statusCode = some 404
  · simp [h404]
  · rw [if_neg h404]
    by_cases hdenied : statusCode = some 401 ∨ statusCode = some 403
    · exact ⟨_, if_pos hdenied⟩
    · rw [if_neg hdenied, if_neg h404]
      split
      · exact ⟨_, rfl⟩
      · split
        · exact ⟨_, rfl⟩
        · exact ⟨_, rfl⟩

theorem failure_eq_none_iff (path : String) :
    failure contents path = none ↔ definitive contents path := by
  unfold failure definitive
  cases houtcome : contents path with
  | success statusCode data truncated =>
    have hsuccess := probePath_success statusCode data truncated
    rw [← Bool.not_eq_false, ← hsuccess]
    cases probePath (.success statusCode data truncated) <;> simp
  | failure statusCode error retryable =>
    have hfailure := probePath_failure statusCode error retryable
    split at hfailure
    · next h404 =>
      rw [hfailure]
      simp [definitiveAnswer, h404]
    · next h404 =>
      obtain ⟨reason, hreason⟩ := hfailure
      rw [hreason]
      simp [definitiveAnswer, h404]

theorem standing_found {path : String} {status : CodeownersStatus}
    (h : (path, status) ∈ candidates) (ts : String)
    (parsed : Except Event.CodeownersTruncationReason ParsedCodeowners) :
    standing (buildResultWithParsed status path ts parsed) = .passing [path] := by
  simp only [candidates, List.mem_cons, Prod.mk.injEq, List.not_mem_nil, or_false] at h
  rcases h with ⟨rfl, rfl⟩ | ⟨rfl, rfl⟩ | ⟨rfl, rfl⟩
  · rfl
  · rfl
  · rfl

theorem search_failsClosed (D : Decoder) (ts : String) (rest : List (String × CodeownersStatus))
    (hrest : ∀ candidate ∈ rest, candidate ∈ candidates) (before : List String)
    (hbefore : ∀ path ∈ before, definitive contents path) (hne : before ≠ [] ∨ rest ≠ []) :
    FailsClosed (before ++ consulted (settles contents) (rest.map Prod.fst)) (definitive contents)
      (failure contents) (standing (search D contents ts rest)) := by
  induction rest generalizing before with
  | nil =>
    rw [List.map_nil, consulted, List.append_nil]
    exact ⟨hne.resolve_right (absurd rfl), hbefore⟩
  | cons candidate rest ih =>
    obtain ⟨path, status⟩ := candidate
    have hread : path ∈ before ++ consulted (settles contents) (path :: rest.map Prod.fst) :=
      List.mem_append_right _ (List.mem_cons_self ..)
    have hfailure : failure contents path = _ := rfl
    unfold failure at hfailure
    rw [search, List.map_cons]
    cases hprobe : probePath (contents path) with
    | found data =>
      rw [standing_found (hrest _ (List.mem_cons_self ..))]
      refine ⟨List.cons_ne_nil _ _, fun r hr => ?_⟩
      obtain rfl := List.mem_singleton.mp hr
      refine ⟨hread, (failure_eq_none_iff r).mp ?_⟩
      rw [failure, hprobe]
    | indeterminate reason =>
      have hreason : failure contents path = some reason := by rw [failure, hprobe]
      refine .inr ⟨path, hread, fun hdef => ?_, hreason⟩
      rw [← failure_eq_none_iff, hreason] at hdef
      cases hdef
    | notFound =>
      have hsettles : settles contents path = false := by rw [settles, hprobe]
      have hdef : definitive contents path := by
        rw [← failure_eq_none_iff, failure, hprobe]
      rw [consulted, hsettles, if_neg Bool.false_ne_true]
      have htail := ih (fun c hc => hrest c (List.mem_cons_of_mem _ hc)) (before ++ [path])
        (List.forall_mem_append.mpr ⟨hbefore, List.forall_mem_singleton.mpr hdef⟩)
        (.inl (by simp))
      rw [List.append_assoc] at htail
      exact htail

theorem evaluate_failsClosed (D : Decoder) (validName : Bool) (contents : String → ApiOutcome)
    (ts : String) :
    FailsClosed (consultedReads contents validName) (definitive contents) (failure contents)
      (standing (evaluate D validName contents ts)) := by
  unfold evaluate consultedReads
  cases validName with
  | false => exact .inl rfl
  | true => exact search_failsClosed D ts candidates (fun _ => id) [] nofun (.inr nofun)

end Codeowners

/-! ## Dependabot security updates -/

namespace Dependabot

/-- The details were read, and have one of the three statuses of the updates. -/
def definitive (repoDetails : ApiOutcome) : Prop :=
  repoDetails.isOk = true ∧ ∃ data analysis updates word, repoDetails.data = some data ∧
    data.get "security_and_analysis" = some analysis ∧
    analysis.get "dependabot_security_updates" = some updates ∧
    updates.get "status" = some (.string word) ∧ word ∈ ["enabled", "paused", "disabled"]

/-- The reason for the details not being definitive. -/
def failure (repoDetails : ApiOutcome) : String :=
  if repoDetails.statusCode = some 403 then "permission_denied"
  else if repoDetails.isRetryable then "transient_error"
  else "insufficient_evidence"

/-- A status that is known rests on the details, the only read. -/
def standing (result : DependabotResult) : Standing Unit String :=
  match result.status with
  | .enabled => .passing [()]
  | .paused | .disabled => .failing
  | .unknown => .unknown (result.reason.getD "")

theorem extractStatus_ne_unknown (data : Json) : extractStatus data ≠ some .unknown := by
  intro h
  simp only [extractStatus, Option.bind_eq_bind, Option.bind_eq_some_iff] at h
  obtain ⟨analysis, -, updates, -, status, -, statusStr, -, h⟩ := h
  split at h
  · cases h
  · split at h
    · cases h
    · split at h
      · cases h
      · cases h

theorem isSome_extractStatus_iff (data : Json) :
    (extractStatus data).isSome = true ↔ ∃ analysis updates word,
      data.get "security_and_analysis" = some analysis ∧
      analysis.get "dependabot_security_updates" = some updates ∧
      updates.get "status" = some (.string word) ∧ word ∈ ["enabled", "paused", "disabled"] := by
  have hword : ∀ word : String, (if word = "enabled" then some DependabotStatus.enabled
      else if word = "paused" then some .paused
      else if word = "disabled" then some .disabled
      else none).isSome = true ↔ word ∈ ["enabled", "paused", "disabled"] := by
    intro word
    split_ifs <;> simp [*]
  have hnode : ∀ (node : Json) (word : String), node.asStr = some word ↔ node = .string word := by
    intro node word
    cases node <;> simp [Json.asStr]
  simp only [extractStatus, Option.bind_eq_bind, Option.isSome_bind, Option.any_eq_true, hword,
    hnode]
  constructor
  · rintro ⟨analysis, hanalysis, updates, hupdates, node, hstatus, word, rfl, hmem⟩
    exact ⟨analysis, updates, word, hanalysis, hupdates, hstatus, hmem⟩
  · rintro ⟨analysis, updates, word, hanalysis, hupdates, hstatus, hmem⟩
    exact ⟨analysis, hanalysis, updates, hupdates, _, hstatus, word, rfl, hmem⟩

theorem definitive_iff (repoDetails : ApiOutcome) :
    definitive repoDetails ↔
      repoDetails.isOk = true ∧ (repoDetails.data.bind extractStatus).isSome = true := by
  refine and_congr_right fun _ => ?_
  simp only [Option.isSome_bind, Option.any_eq_true, isSome_extractStatus_iff]
  constructor
  · rintro ⟨data, analysis, updates, word, hdata, h⟩
    exact ⟨data, hdata, analysis, updates, word, h⟩
  · rintro ⟨data, hdata, analysis, updates, word, h⟩
    exact ⟨data, analysis, updates, word, hdata, h⟩

theorem evaluate_failsClosed (validName : Bool) (repoDetails : ApiOutcome) (ts : String) :
    FailsClosed (if validName then [()] else []) (fun _ => definitive repoDetails)
      (fun _ => some (failure repoDetails)) (standing (evaluate validName repoDetails ts)) := by
  unfold evaluate
  cases validName with
  | false => exact .inl rfl
  | true =>
    simp only [Bool.not_true, Bool.false_eq_true, if_false, if_true]
    split
    · next status hstatus =>
      have hdef : definitive repoDetails := by
        split at hstatus
        · next hok => exact (definitive_iff repoDetails).mpr ⟨hok, by rw [hstatus]; rfl⟩
        · cases hstatus
      cases status with
      | enabled => exact ⟨List.cons_ne_nil _ _, fun r hr => ⟨hr, hdef⟩⟩
      | paused => exact ⟨List.cons_ne_nil _ _, fun _ _ => hdef⟩
      | disabled => exact ⟨List.cons_ne_nil _ _, fun _ _ => hdef⟩
      | unknown =>
        split at hstatus
        · obtain ⟨data, -, hdata⟩ := Option.bind_eq_some_iff.mp hstatus
          exact absurd hdata (extractStatus_ne_unknown data)
        · cases hstatus
    · next hstatus =>
      have hnot : ¬ definitive repoDetails := by
        rw [definitive_iff]
        rintro ⟨hok, hsome⟩
        rw [if_pos hok] at hstatus
        rw [hstatus] at hsome
        cases hsome
      have hunknown : ∀ reason, failure repoDetails = reason → FailsClosed [()]
          (fun _ => definitive repoDetails) (fun _ => some (failure repoDetails))
          (.unknown reason) := by
        rintro reason rfl
        exact .inr ⟨(), List.mem_singleton_self _, hnot, rfl⟩
      by_cases hdenied : repoDetails.statusCode = some 403
      · rw [if_pos hdenied]
        exact hunknown _ (if_pos hdenied)
      · rw [if_neg hdenied]
        by_cases hretryable : repoDetails.isRetryable = true
        · rw [if_pos hretryable]
          exact hunknown _ ((if_neg hdenied).trans (if_pos hretryable))
        · rw [if_neg hretryable]
          exact hunknown _ ((if_neg hdenied).trans (if_neg hretryable))

end Dependabot

/-! ## Branch protection -/

namespace BranchProtection

def ProtectionEndpoint.outcome (rulesets legacy : ApiOutcome) : ProtectionEndpoint → ApiOutcome
  | .rulesets => rulesets
  | .legacy => legacy

def standing : BranchProtectionResult → Standing ProtectionEndpoint EndpointFailure
  | .protected _ _ => .passing [.rulesets, .legacy]
  | .unprotected _ _ _ => .failing
  | .unobservable _ reason httpStatus _ => .unknown ⟨reason, httpStatus⟩

/-- The details tell whether a missing endpoint is definitive. -/
theorem evaluate_failsClosed (validName : Bool) (repo : Repository)
    (rulesets legacy repoDetails : ApiOutcome) (ts : String) :
    FailsClosed (if validName then [.rulesets, .legacy] else [])
      (fun endpoint => Definitive endpoint (endpoint.outcome rulesets legacy)
        (repoAdminSignal repoDetails))
      (fun endpoint => (classifyEndpoint (endpoint.outcome rulesets legacy) endpoint
        repo.defaultBranch (repoAdminSignal repoDetails)).failure?)
      (standing (evaluate validName repo rulesets legacy repoDetails ts)) := by
  unfold evaluate
  cases validName with
  | false => exact .inl rfl
  | true =>
    simp only [Bool.not_true, Bool.false_eq_true, if_false, if_true]
    by_cases hnil : endpointFailures rulesets legacy repo.defaultBranch
        (repoAdminSignal repoDetails) = []
    · obtain ⟨hrulesets, hlegacy⟩ := endpointFailures_eq_nil_iff.mp hnil
      have hdef : ∀ endpoint : ProtectionEndpoint, Definitive endpoint
          (endpoint.outcome rulesets legacy) (repoAdminSignal repoDetails) := by
        rintro (_ | _)
        · exact hrulesets
        · exact hlegacy
      by_cases hsignals : observedSignals rulesets legacy repo.defaultBranch = []
      · obtain ⟨httpStatus, h, -⟩ := evaluateOutcomes_absent hrulesets hlegacy hsignals ts
        rw [h]
        exact ⟨List.cons_ne_nil _ _, fun r _ => hdef r⟩
      · rw [evaluateOutcomes_observed hrulesets hlegacy hsignals ts]
        unfold verdictOf fromHistorySignals
        split
        · exact ⟨List.cons_ne_nil _ _, fun r hr => ⟨hr, hdef r⟩⟩
        · exact ⟨List.cons_ne_nil _ _, fun r _ => hdef r⟩
        · exact ⟨List.cons_ne_nil _ _, fun r _ => hdef r⟩
        · exact ⟨List.cons_ne_nil _ _, fun r _ => hdef r⟩
    · obtain ⟨failure, hmem, h, -⟩ := evaluateOutcomes_indeterminate hnil ts
      rw [h]
      refine .inr ?_
      unfold endpointFailures at hmem
      obtain ⟨evidence, hevidence, hfailure⟩ := List.mem_filterMap.mp hmem
      have hread : ∀ endpoint : ProtectionEndpoint, evidence = classifyEndpoint
          (endpoint.outcome rulesets legacy) endpoint repo.defaultBranch
          (repoAdminSignal repoDetails) → endpoint ∈ [.rulesets, .legacy] →
          ∃ r ∈ [ProtectionEndpoint.rulesets, .legacy], ¬ Definitive r
            (r.outcome rulesets legacy) (repoAdminSignal repoDetails) ∧
            (classifyEndpoint (r.outcome rulesets legacy) r repo.defaultBranch
              (repoAdminSignal repoDetails)).failure? = some failure := by
        rintro endpoint rfl hmem
        refine ⟨endpoint, hmem, fun hdef => ?_, hfailure⟩
        rw [failure?_eq_none_iff.mpr hdef] at hfailure
        cases hfailure
      simp only [List.mem_cons, List.not_mem_nil, or_false] at hevidence
      rcases hevidence with hevidence | hevidence
      · exact hread .rulesets hevidence (by decide)
      · exact hread .legacy hevidence (by decide)

end BranchProtection

/-! ## All evaluations -/

/-- What could not be read is never counted against a repository. -/
theorem evaluations_failClosed :
    (∀ (validName : Bool) (repo : Repository) (repoDetails : Answer) (contents : String → Answer)
      (runTimestamp : String),
      FailsClosed (SecurityPolicy.consultedReads repoDetails contents validName repo)
        (SecurityPolicy.PolicyRead.definitive repoDetails contents)
        (SecurityPolicy.PolicyRead.failure repoDetails contents)
        (SecurityPolicy.standing (SecurityPolicy.evaluate validName repo repoDetails.outcome
          (fun path => (contents path).outcome) runTimestamp))) ∧
    (∀ (D : Codeowners.Decoder) (validName : Bool) (contents : String → ApiOutcome)
      (runTimestamp : String),
      FailsClosed (Codeowners.consultedReads contents validName) (Codeowners.definitive contents)
        (Codeowners.failure contents)
        (Codeowners.standing (Codeowners.evaluate D validName contents runTimestamp))) ∧
    (∀ (validName : Bool) (repoDetails : ApiOutcome) (runTimestamp : String),
      FailsClosed (if validName then [()] else []) (fun _ => Dependabot.definitive repoDetails)
        (fun _ => some (Dependabot.failure repoDetails))
        (Dependabot.standing (Dependabot.evaluate validName repoDetails runTimestamp))) ∧
    ∀ (validName : Bool) (repo : Repository) (rulesets legacy repoDetails : ApiOutcome)
      (runTimestamp : String),
      FailsClosed (if validName then [.rulesets, .legacy] else [])
        (fun endpoint => BranchProtection.Definitive endpoint (endpoint.outcome rulesets legacy)
          (BranchProtection.repoAdminSignal repoDetails))
        (fun endpoint => (BranchProtection.classifyEndpoint (endpoint.outcome rulesets legacy)
          endpoint repo.defaultBranch (BranchProtection.repoAdminSignal repoDetails)).failure?)
        (BranchProtection.standing (BranchProtection.evaluate validName repo rulesets legacy
          repoDetails runTimestamp)) :=
  ⟨SecurityPolicy.evaluate_failsClosed, Codeowners.evaluate_failsClosed,
    Dependabot.evaluate_failsClosed, BranchProtection.evaluate_failsClosed⟩

end GhReport.Collector
