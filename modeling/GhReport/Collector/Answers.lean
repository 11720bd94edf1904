import GhReport.GitHub.Interleaving

/-! # What the client answers

Whatever the server sends, a success has a status of success, and a failure that may be tried
again for its status has one of the statuses that are. The evaluations of a repository are made
from such answers.
-/

namespace GhReport.Collector

open Domain GitHub

/--
What the client answers: a success has a status of success, and a failure is retryable for its
status only where the status is one of those that are tried again.
-/
structure Answer where
  outcome : ApiOutcome
  ok_status : outcome.isOk = true → ∀ s, outcome.statusCode = some s → 200 ≤ s ∧ s < 300
  retryable_status : outcome.isRetryable = true → ∀ s, outcome.statusCode = some s →
    s ∈ [429, 500, 502, 503, 504]

/-! ## Outcomes -/

/-- The outcome is an answer. -/
def Answered (outcome : ApiOutcome) : Prop := ∃ answer : Answer, answer.outcome = outcome

theorem answered_success {statusCode : UInt16} {data : Option Json} {truncated : Bool}
    (h : 200 ≤ statusCode ∧ statusCode < 300) : Answered (.success statusCode data truncated) := by
  refine ⟨⟨.success statusCode data truncated, ?_, fun h => absurd h Bool.false_ne_true⟩, rfl⟩
  intro _ s hs
  obtain rfl := Option.some.inj hs
  exact h

theorem answered_failure {statusCode : Option UInt16} {error : String} {retryable : Bool}
    (h : retryable = true → ∀ s, statusCode = some s → s ∈ [429, 500, 502, 503, 504]) :
    Answered (.failure statusCode error retryable) :=
  ⟨⟨.failure statusCode error retryable, fun h => absurd h Bool.false_ne_true, h⟩, rfl⟩

/-- A failure that is not tried again. -/
theorem answered_final {statusCode : Option UInt16} {error : String} :
    Answered (.failure statusCode error false) :=
  answered_failure fun h => absurd h Bool.false_ne_true

theorem httpFailure_answer (r : Response) : Answered (httpFailureKind r).toApiOutcome := by
  refine answered_failure ?_
  intro hretryable s hs
  obtain rfl := Option.some.inj hs
  exact List.contains_iff_mem.mp hretryable

/-! ## Attempts -/

/-- An attempt ended in what a request may return. -/
def AttemptAnswered : AttemptResult → Prop
  | .success statusCode .. => 200 ≤ statusCode ∧ statusCode < 300
  | .failure kind => Answered kind.toApiOutcome

theorem AttemptAnswered.outcome {result : AttemptResult} (h : AttemptAnswered result)
    (attempt : ℕ) (haltTriggered : Bool) :
    Answered (RequestRun.fromAttempt result attempt haltTriggered).outcome := by
  cases result with
  | success statusCode data truncated => exact answered_success h
  | failure kind => exact h

theorem attemptAnswered_transport (error : String) (timeout : Bool) :
    AttemptAnswered (.failure (.transport error timeout)) :=
  answered_failure fun _ _ hs => by cases hs

theorem attemptAnswered_done (s : PageLoop) (truncated : Bool) :
    AttemptAnswered (s.done truncated) := ⟨by decide, by decide⟩

theorem isSuccess_iff {r : Response} : r.isSuccess = true ↔ 200 ≤ r.status ∧ r.status < 300 := by
  simp [Response.isSuccess]

section Requests

variable {C : Client}

theorem pageItems_answered {status : UInt16} {bodyBytes : List UInt8} {kind : RequestFailureKind}
    (h : pageItems C status bodyBytes = .error kind) : Answered kind.toApiOutcome := by
  unfold pageItems at h
  split at h
  · cases h
    exact answered_final
  · split at h
    · cases h
      exact answered_final
    · split at h
      · cases h
      · cases h
        exact answered_final
      · cases h
        exact answered_final

theorem parsePaginatedPageBody_answered {status : UInt16} {bodyBytes : List UInt8}
    {allItems : List Json} {kind : RequestFailureKind}
    (h : parsePaginatedPageBody C status bodyBytes allItems = .error kind) :
    Answered kind.toApiOutcome := by
  unfold parsePaginatedPageBody at h
  cases hitems : pageItems C status bodyBytes with
  | error kind' =>
    rw [hitems] at h
    cases h
    exact pageItems_answered hitems
  | ok items =>
    rw [hitems] at h
    change (if _ then _ else _) = _ at h
    split at h <;> cases h

theorem receive_answered {s : PageLoop} {response : Response} {result : AttemptResult}
    (h : s.receive C response = .inl result) : AttemptAnswered result := by
  unfold PageLoop.receive at h
  split at h
  · cases h
    exact httpFailure_answer response
  · dsimp only at h
    split at h
    · cases h
      exact answered_final
    · split at h
      · rename_i hparse
        cases h
        exact parsePaginatedPageBody_answered hparse
      · cases h
        exact attemptAnswered_done ..
      · split at h
        · cases h
        · cases h
          exact attemptAnswered_done ..
        · cases h
          exact attemptAnswered_done ..
        · cases h
          exact attemptAnswered_done ..

theorem requestPaginated_answered (server : ℕ → String → PageEnvironment) (path : String) :
    AttemptAnswered (requestPaginated C server path) := by
  refine (paginate C server).exec_induction (P := fun _ w => AttemptAnswered w) ?_ ?_ _
  · intro s w hs
    simp only [paginate] at hs
    split at hs
    · cases hs
      exact attemptAnswered_done ..
    · split at hs
      · cases hs
        exact attemptAnswered_transport ..
      · exact receive_answered hs
  · intro s s' _ ih
    exact ih

theorem parseSingle_answered {statusCode : UInt16} (h : 200 ≤ statusCode ∧ statusCode < 300)
    (bodyBytes : List UInt8) : AttemptAnswered (parseSingle C statusCode bodyBytes) := by
  unfold parseSingle
  split
  · exact answered_final
  · split
    · exact h
    · split
      · exact h
      · exact answered_final

end Requests

/-! ## Requests -/

section Runs

variable (S : DetailSource)

theorem requestSingle_answered (sent : Except (String × Bool) Response) :
    AttemptAnswered (requestSingle S sent) := by
  unfold requestSingle
  split
  · exact attemptAnswered_transport ..
  · rename_i response
    cases hsuccess : response.isSuccess with
    | false => exact httpFailure_answer response
    | true =>
      rw [Bool.not_true, if_neg Bool.false_ne_true]
      split
      · exact answered_final
      · exact parseSingle_answered (isSuccess_iff.mp hsuccess) _

theorem attemptRun_answered (path : String) (attempt : CallAttempt) (paginate : Bool) :
    AttemptAnswered (attempt.run S path paginate) := by
  cases paginate with
  | true => exact requestPaginated_answered ..
  | false => exact requestSingle_answered ..

/-- Whatever happens in a request, with pages or without, its outcome is an answer. -/
theorem requestRun_answered (paginate : Bool) (path : String) (env : CallEnvironment)
    (retries : ℕ) : Answered (requestRun S paginate path env retries).outcome := by
  have hloop : ∀ s, Answered ((callLoop S paginate path env (retries + 1)).exec s).outcome := by
    refine (callLoop S paginate path env (retries + 1)).exec_induction
      (P := fun _ w => Answered w.outcome) ?_ fun _ _ _ ih => ih
    intro s w hs
    have hresult := attemptRun_answered S path (env.attempts s.attempt) paginate
    simp only [callLoop] at hs
    split at hs
    · split at hs
      · cases hs
        exact hresult.outcome ..
      · split at hs
        · split at hs
          · cases hs
            exact answered_final
          · cases hs
        · split at hs
          · cases hs
          · cases hs
            exact hresult.outcome ..
    · cases hs
      exact answered_final
  unfold requestRun
  split
  · exact answered_final
  · split
    · exact answered_final
    · split
      · exact answered_final
      · exact hloop _

/-- Calls that run side by side return answers. -/
theorem finished_answered {inputs : List HaltInput} {i : ℕ} {call : RequestCall} {run : RequestRun}
    (h : .finished i call run ∈ (haltMachine S).history .init inputs) : Answered run.outcome := by
  obtain ⟨env, -, rfl⟩ := finished_requestRun h
  exact requestRun_answered ..

/-- An entry was stored with the status of a success. -/
def StoredOk (cached : CachedResult) : Prop := 200 ≤ cached.statusCode ∧ cached.statusCode < 300

theorem revalidation_ok {env : RevalidationEnvironment} {statusCode : UInt16}
    {newEtag : Option String} {body : String} (h : env.answer = .success statusCode newEtag body) :
    200 ≤ statusCode ∧ statusCode < 300 := by
  unfold RevalidationEnvironment.answer at h
  split at h
  · cases h
  · split at h
    · cases h
    · split at h
      · cases h
      · split at h
        · cases h
        · rename_i response _ _
          split at h
          · cases h
          · cases hsuccess : response.isSuccess with
            | false =>
              rw [hsuccess] at h
              cases h
            | true =>
              rw [hsuccess, Bool.not_true, if_neg Bool.false_ne_true] at h
              split at h
              · cases h
              · split at h
                · cases h
                · cases h
                  exact isSuccess_iff.mp hsuccess

theorem tryEtagRevalidation_answered {env : RevalidationEnvironment} {cached : CachedResult}
    {outcome : ApiOutcome} (hcached : StoredOk cached)
    (hreread : ∀ cached ∈ env.reread, StoredOk cached)
    (h : env.tryEtagRevalidation S cached = some outcome) : Answered outcome := by
  unfold RevalidationEnvironment.tryEtagRevalidation at h
  split at h
  · cases h
  · cases h
    exact answered_success hcached
  · rename_i statusCode _ body hanswer
    split at h
    · cases h
      exact answered_success (revalidation_ok hanswer)
    · split at h
      · obtain ⟨stored, hstored, rfl⟩ := Option.map_eq_some_iff.mp h
        exact answered_success (hreread stored hstored)
      · cases h

/-- The details of a repository are an answer, from the cache, a revalidation or a request. -/
theorem repoDetails_answered (repoName : String) (env : DetailsEnvironment)
    (hcached : ∀ cached ∈ env.cacheHit, StoredOk cached)
    (hreread : ∀ cached ∈ env.revalidation.reread, StoredOk cached) :
    Answered (repoDetailsOutcome S repoName env) := by
  unfold repoDetailsOutcome
  split
  · exact answered_final
  · split
    · rename_i cached hfresh
      exact answered_success (hcached cached (Option.filter_eq_some_iff.mp hfresh).1)
    · cases hrevalidated : env.revalidated.bind (env.revalidation.tryEtagRevalidation S) with
      | none => exact requestRun_answered ..
      | some outcome =>
        obtain ⟨cached, hstale, hserved⟩ := Option.bind_eq_some_iff.mp hrevalidated
        have hentry := hcached cached (Option.filter_eq_some_iff.mp hstale).1
        exact tryEtagRevalidation_answered S hentry hreread hserved

end Runs

end GhReport.Collector
