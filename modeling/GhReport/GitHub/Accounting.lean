import GhReport.GitHub.Dispatch
import Mathlib.Algebra.BigOperators.Group.List.Basic
import Mathlib.Algebra.Order.Ring.Int
import Mathlib.Tactic.Ring

/-! # The accounts of the call budget

The permits of a call pay for its requests when one request at most goes out
without a permit of its own: a second attempt and a token exchange have none.
-/

namespace GhReport.GitHub

/-! ## Balances -/

/-- A request that counts: one that is not answered with 304. -/
def ApiEvent.isCharged : ApiEvent → Bool
  | dispatched answer => answer ≠ some 304
  | _ => false

/-- The charged requests are at most the permits that were acquired and not refunded. -/
def WithinPermits (events : List ApiEvent) : Prop :=
  events.countP ApiEvent.isCharged + events.count .refunded ≤ events.count .acquired

instance (events : List ApiEvent) : Decidable (WithinPermits events) :=
  inferInstanceAs (Decidable (_ ≤ _))

/-- The charged requests less the permits that were kept. -/
def balance (events : List ApiEvent) : ℤ :=
  events.countP ApiEvent.isCharged + events.count .refunded - events.count .acquired

theorem withinPermits_iff (events : List ApiEvent) :
    WithinPermits events ↔ balance events ≤ 0 := by
  unfold WithinPermits balance
  omega

@[simp] theorem balance_nil : balance [] = 0 := rfl

@[simp] theorem balance_append (events events' : List ApiEvent) :
    balance (events ++ events') = balance events + balance events' := by
  simp only [balance, List.countP_append, List.count_append]
  omega

@[simp] theorem balance_acquired (events : List ApiEvent) :
    balance (.acquired :: events) = balance events - 1 := by
  simp [balance, ApiEvent.isCharged]
  omega

@[simp] theorem balance_refunded (events : List ApiEvent) :
    balance (.refunded :: events) = balance events + 1 := by
  simp [balance, ApiEvent.isCharged]
  omega

@[simp] theorem balance_dispatched (answer : Option UInt16) (events : List ApiEvent) :
    balance (.dispatched answer :: events) =
      balance events + if answer = some 304 then 0 else 1 := by
  by_cases h : answer = some 304
  · simp [balance, ApiEvent.isCharged, h]
  · simp [balance, ApiEvent.isCharged, h]
    omega

theorem balance_flatMap {α : Type*} {f : α → List ApiEvent} {g : α → ℕ}
    (h : ∀ a, balance (f a) = g a) (l : List α) : balance (l.flatMap f) = (l.map g).sum := by
  induction l with
  | nil => rfl
  | cons a l ih =>
    rw [List.flatMap_cons, balance_append, ih, h, List.map_cons, List.sum_cons]
    push_cast
    rfl

/-! ## Pages -/

section Pages

variable {C : Client} {server : ℕ → String → PageEnvironment}

theorem status_ne_of_isSuccess {r : Response} (h : r.isSuccess = true) : r.status ≠ 304 := by
  intro hstatus
  rw [Response.isSuccess, hstatus] at h
  cases h

variable (C server) in
/-- A page is not asked for, and ends the listing, or it is sent, and paid for if not the first. -/
theorem page_cases (s : PageLoop) :
    (pageEvents server s = [] ∧ ∃ truncated,
      (paginate C server).step s =
        .inl (PageLoop.done { s with pageCount := s.pageCount + 1 } truncated)) ∨
    pageEvents server s = (if s.pageCount = 0 then [] else [.acquired]) ++
        [.dispatched (answerOf (server (s.pageCount + 1) s.url).sent)] ∧
      (paginate C server).step s =
        match (server (s.pageCount + 1) s.url).sent with
        | .error (error, timeout) => .inl (.failure (.transport error timeout))
        | .ok response => PageLoop.receive C { s with pageCount := s.pageCount + 1 } response := by
  simp only [paginate, pageEvents]
  by_cases hstops : (server (s.pageCount + 1) s.url).stops (s.pageCount + 1) = true
  · rw [if_pos hstops, if_pos hstops]
    exact .inl ⟨rfl, true, rfl⟩
  · rw [if_neg hstops, if_neg hstops]
    refine .inr ⟨?_, rfl⟩
    rcases Nat.eq_zero_or_pos s.pageCount with hfirst | hmore
    · rw [if_neg (by omega), if_pos hfirst]
    · rw [if_pos (by omega), if_neg hmore.ne']

/-- A page that goes on to the next one was answered, and not with 304. -/
theorem pageEvents_inr {s s' : PageLoop} (h : (paginate C server).step s = .inr s') :
    s'.pageCount = s.pageCount + 1 ∧ ∃ status, status ≠ 304 ∧ pageEvents server s =
      (if s.pageCount = 0 then [] else [.acquired]) ++ [.dispatched (some status)] := by
  rcases page_cases C server s with ⟨-, truncated, hstep⟩ | ⟨hevents, hstep⟩
  · rw [hstep] at h
    cases h
  · rw [hstep] at h
    cases hsent : (server (s.pageCount + 1) s.url).sent with
    | error e =>
      rw [hsent] at h
      cases h
    | ok response =>
      rw [hsent] at h hevents
      refine ⟨PageLoop.receive_inr C h, response.status, ?_, hevents⟩
      apply status_ne_of_isSuccess
      by_contra hsuccess
      rw [Bool.not_eq_true] at hsuccess
      simp [PageLoop.receive, hsuccess] at h

variable (C server) in
/-- The pages after the first pay for themselves; one that is answered with 304 is the last. -/
theorem balance_pages (s : PageLoop) (hs : s.pageCount ≠ 0) :
    balance ((paginate C server).trace (pageEvents server) s) =
      if .dispatched (some 304) ∈ (paginate C server).trace (pageEvents server) s then -1
      else 0 := by
  refine (paginate C server).exec_induction
    (P := fun s _ => s.pageCount ≠ 0 →
      balance ((paginate C server).trace (pageEvents server) s) =
        if .dispatched (some 304) ∈ (paginate C server).trace (pageEvents server) s then -1
        else 0) ?_ ?_ s hs
  · intro s w hdone hs
    rw [Loop.trace_inl hdone]
    rcases page_cases C server s with ⟨h, -⟩ | ⟨h, -⟩
    · rw [h]
      rfl
    · rw [h, if_neg hs]
      generalize answerOf (server (s.pageCount + 1) s.url).sent = answer
      by_cases hanswer : answer = some 304
      · simp [hanswer]
      · simp [hanswer, eq_comm]
  · intro s s' hnext ih hs
    obtain ⟨hcount, status, hstatus, h⟩ := pageEvents_inr hnext
    rw [Loop.trace_inr hnext, h, if_neg hs, balance_append, ih (by omega)]
    simp [hstatus, hstatus.symm]

variable (C server) in
/-- Of the requests of a listing, only the first has no permit of its own. -/
theorem balance_listing (url : String) :
    balance ((paginate C server).trace (pageEvents server) ⟨url, 0, []⟩) =
      if (paginate C server).trace (pageEvents server) ⟨url, 0, []⟩ = [] ∨
        .dispatched (some 304) ∈ (paginate C server).trace (pageEvents server) ⟨url, 0, []⟩
      then 0 else 1 := by
  cases hs : (paginate C server).step ⟨url, 0, []⟩ with
  | inl w =>
    rw [Loop.trace_inl hs]
    rcases page_cases C server ⟨url, 0, []⟩ with ⟨h, -⟩ | ⟨h, -⟩
    · rw [h]
      rfl
    · rw [h, if_pos rfl]
      generalize answerOf _ = answer
      by_cases hanswer : answer = some 304
      · simp [hanswer]
      · simp [hanswer, eq_comm]
  | inr s' =>
    obtain ⟨hcount, status, hstatus, h⟩ := pageEvents_inr hs
    have hpages := balance_pages C server s' (by rw [hcount]; nofun)
    rw [Loop.trace_inr hs, h, if_pos rfl, balance_append, hpages]
    by_cases hlast : .dispatched (some 304) ∈ (paginate C server).trace (pageEvents server) s'
    · simp [hstatus, hlast]
    · simp [hstatus, hstatus.symm, hlast]

/-- The errors of a page's body carry the status of its response. -/
theorem statusCode_parsePaginatedPageBody {status : UInt16} {bodyBytes : List UInt8}
    {allItems : List Json} {kind : RequestFailureKind}
    (h : parsePaginatedPageBody C status bodyBytes allItems = .error kind) :
    kind.statusCode = some status := by
  unfold parsePaginatedPageBody pageItems at h
  cases hutf8 : String.fromUTF8? bodyBytes.toByteArray with
  | none =>
    rw [hutf8] at h
    cases h
    rfl
  | some body =>
    rw [hutf8] at h
    dsimp only at h
    split at h
    · cases h
      rfl
    · cases hjson : C.parseJson body with
      | error e =>
        rw [hjson] at h
        cases h
        rfl
      | ok json =>
        rw [hjson] at h
        cases json with
        | array items =>
          dsimp only [bind, Except.bind] at h
          split at h <;> cases h
        | _ =>
          cases h
          rfl

/-- A listing that ends with a response has the status 304 only from this response. -/
theorem PageLoop.receive_statusCode {s : PageLoop} {response : Response} {w : AttemptResult}
    (h : s.receive C response = .inl w) :
    w.statusCode = some 304 ↔ response.status = 304 := by
  unfold PageLoop.receive at h
  cases hsuccess : response.isSuccess with
  | false =>
    rw [hsuccess] at h
    cases h
    simp [AttemptResult.statusCode, httpFailureKind, RequestFailureKind.statusCode]
  | true =>
    have hstatus := status_ne_of_isSuccess hsuccess
    refine iff_of_false ?_ hstatus
    rw [hsuccess] at h
    simp only [Bool.not_true, Bool.false_eq_true, if_false] at h
    cases hread : readBodyBytesLimited response maxResponseBodyBytes with
    | error e =>
      rw [hread] at h
      cases h
      simpa [AttemptResult.statusCode, RequestFailureKind.statusCode] using hstatus
    | ok bodyBytes =>
      rw [hread] at h
      dsimp only at h
      cases hparse : parsePaginatedPageBody C response.status bodyBytes s.allItems with
      | error kind =>
        rw [hparse] at h
        cases h
        rw [AttemptResult.statusCode, statusCode_parsePaginatedPageBody hparse]
        simpa using hstatus
      | ok parsed =>
        rw [hparse] at h
        obtain ⟨cut, allItems⟩ := parsed
        cases cut with
        | true =>
          cases h
          exact nofun
        | false =>
          dsimp only at h
          cases hnext : trustedContinuation C response.link with
          | follow url =>
            rw [hnext] at h
            cases h
          | exhausted | refused | uninterpretable =>
            rw [hnext] at h
            cases h
            exact nofun

/-- One of the requests of a listing is answered with 304 when its result says so. -/
theorem notModified_mem_iff (s : PageLoop) :
    .dispatched (some 304) ∈ (paginate C server).trace (pageEvents server) s ↔
      ((paginate C server).exec s).statusCode = some 304 := by
  refine (paginate C server).exec_induction
    (P := fun s w => .dispatched (some 304) ∈ (paginate C server).trace (pageEvents server) s ↔
      w.statusCode = some 304) ?_ ?_ s
  · intro s w hdone
    rw [Loop.trace_inl hdone]
    rcases page_cases C server s with ⟨hevents, truncated, hstep⟩ | ⟨hevents, hstep⟩
    · rw [hstep] at hdone
      cases hdone
      rw [hevents]
      exact iff_of_false List.not_mem_nil nofun
    · have hmem : ApiEvent.dispatched (some 304) ∈ pageEvents server s ↔
          answerOf (server (s.pageCount + 1) s.url).sent = some 304 := by
        rw [hevents]
        by_cases hfirst : s.pageCount = 0
        · simp [hfirst, eq_comm]
        · simp [hfirst, eq_comm]
      rw [hmem]
      rw [hstep] at hdone
      cases hanswer : (server (s.pageCount + 1) s.url).sent with
      | error e =>
        rw [hanswer] at hdone
        cases hdone
        exact iff_of_false nofun nofun
      | ok response =>
        rw [hanswer] at hdone
        rw [PageLoop.receive_statusCode hdone, answerOf, Option.some.injEq]
  · intro s s' hnext ih
    obtain ⟨-, status, hstatus, h⟩ := pageEvents_inr hnext
    rw [Loop.trace_inr hnext, h, List.mem_append, ih]
    apply or_iff_right
    by_cases hfirst : s.pageCount = 0
    · simp [hfirst, hstatus.symm]
    · simp [hfirst, hstatus.symm]

/-- A listing sends nothing only when it is halted before its first page. -/
theorem listing_eq_nil_iff (url : String) :
    (paginate C server).trace (pageEvents server) ⟨url, 0, []⟩ = [] ↔
      (server 1 url).halted = true := by
  have hevents : pageEvents server ⟨url, 0, []⟩ =
      if (server 1 url).halted then [] else [.dispatched (answerOf (server 1 url).sent)] := by
    simp [pageEvents, PageEnvironment.stops, maxPaginationPages]
  cases hs : (paginate C server).step ⟨url, 0, []⟩ with
  | inl w =>
    rw [Loop.trace_inl hs, hevents]
    cases (server 1 url).halted <;> simp
  | inr s' =>
    obtain ⟨-, status, -, h⟩ := pageEvents_inr hs
    rw [Loop.trace_inr hs, h]
    rw [hevents, if_pos rfl] at h
    cases hhalted : (server 1 url).halted with
    | true =>
      rw [hhalted] at h
      cases h
    | false => simp

end Pages

/-! ## Requests without a permit of their own -/

/-- The check sends a token exchange that counts. -/
def CredentialCheck.unpaid (check : CredentialCheck) : Bool :=
  check.events.any ApiEvent.isCharged

theorem CredentialCheck.balance_events (check : CredentialCheck) :
    balance check.events = check.unpaid.toNat := by
  obtain ⟨exchange, result⟩ := check
  cases exchange with
  | none => rfl
  | some answer =>
    by_cases h : answer = some 304
    · simp [CredentialCheck.events, CredentialCheck.unpaid, ApiEvent.isCharged, h]
    · simp [CredentialCheck.events, CredentialCheck.unpaid, ApiEvent.isCharged, h]

section Attempts

variable (S : DetailSource)

/-- A request has the status 304 only from its response. -/
theorem requestSingle_statusCode (sent : Except (String × Bool) Response) :
    (requestSingle S sent).statusCode = some 304 ↔ answerOf sent = some 304 := by
  unfold requestSingle
  cases sent with
  | error e => exact iff_of_false nofun nofun
  | ok response =>
    rw [answerOf, Option.some.injEq]
    cases hsuccess : response.isSuccess with
    | false =>
      simp [hsuccess, AttemptResult.statusCode, httpFailureKind, RequestFailureKind.statusCode]
    | true =>
      have hstatus := status_ne_of_isSuccess hsuccess
      refine iff_of_false ?_ hstatus
      have hsome : ∀ {code : Option UInt16}, code = some response.status → code ≠ some 304 := by
        rintro code rfl
        simpa using hstatus
      apply hsome
      simp only [hsuccess, Bool.not_true, Bool.false_eq_true, if_false]
      cases readBodyBytesLimited response maxResponseBodyBytes with
      | error e => rfl
      | ok bodyBytes =>
        dsimp only
        unfold parseSingle
        cases String.fromUTF8? bodyBytes.toByteArray with
        | none => rfl
        | some body =>
          dsimp only
          split
          · rfl
          · split <;> rfl

variable (paginate : Bool) (path : String)

/-- The attempt is not halted before its first request, and its result is not the status 304. -/
def CallAttempt.unpaid (attempt : CallAttempt) : Bool :=
  !(paginate && (attempt.first S path).halted) &&
    (attempt.run S path paginate).statusCode ≠ some 304

theorem CallAttempt.balance_events (attempt : CallAttempt) :
    balance (attempt.events S path paginate) = (attempt.unpaid S paginate path).toNat := by
  cases paginate with
  | true =>
    have hlisting := balance_listing S.client attempt.server
      (S.client.baseUrl ++ path)
    simp only [listing_eq_nil_iff, notModified_mem_iff] at hlisting
    rw [CallAttempt.events, hlisting]
    have hunpaid : attempt.unpaid S true path =
        (!(attempt.server 1 (S.client.baseUrl ++ path)).halted &&
          ((paginate S.client attempt.server).exec ⟨S.client.baseUrl ++ path, 0, []⟩).statusCode ≠
            some 304) := rfl
    rw [hunpaid]
    split
    · next h => rcases h with h | h <;> simp [h]
    · next h =>
      rw [not_or, Bool.not_eq_true] at h
      simp [h.1, h.2]
  | false =>
    have hstatus : (attempt.run S path false).statusCode = some 304 ↔
        answerOf (attempt.first S path).sent = some 304 := by
      unfold CallAttempt.run
      exact requestSingle_statusCode S (attempt.first S path).sent
    by_cases h : answerOf (attempt.first S path).sent = some 304
    · simp [CallAttempt.unpaid, CallAttempt.events, hstatus, h]
    · simp [CallAttempt.unpaid, CallAttempt.events, hstatus, h]

/-- The attempt and the token exchange of one turn, if they go out without a permit. -/
def turnUnpaid (env : CallEnvironment) (attempts : ℕ) (s : AttemptLoop) : ℕ :=
  if s.attempt < attempts then
    let attempt := env.attempts s.attempt
    (attempt.unpaid S paginate path).toNat +
      if refreshes S paginate path env attempts s then attempt.refresh.unpaid.toNat else 0
  else 0

theorem balance_attemptEvents (env : CallEnvironment) (attempts : ℕ) (s : AttemptLoop) :
    balance (attemptEvents S paginate path env attempts s) =
      turnUnpaid S paginate path env attempts s := by
  unfold attemptEvents turnUnpaid
  split
  · dsimp only
    rw [balance_append, CallAttempt.balance_events]
    split
    · rw [CredentialCheck.balance_events]
      rfl
    · rfl
  · rfl

end Attempts

section Calls

variable (S : DetailSource)

/-- The request acquires the permit of its attempts. -/
def CallEnvironment.admitted (env : CallEnvironment) : Bool :=
  !env.halted && env.credential.result.isOk && env.acquired

/-- Its token exchanges and its attempts that send a request. -/
def requestUnpaid (paginate : Bool) (path : String) (env : CallEnvironment) (retries : ℕ) : ℕ :=
  if env.halted then 0
  else env.credential.unpaid.toNat +
    if env.admitted then
      (((callLoop S paginate path env (retries + 1)).visited ⟨0, false⟩).map
        (turnUnpaid S paginate path env (retries + 1))).sum
    else 0

theorem balance_requestEvents (paginate : Bool) (path : String) (env : CallEnvironment)
    (retries : ℕ) :
    balance (requestEvents S paginate path env retries) =
      requestUnpaid S paginate path env retries - env.admitted.toNat := by
  unfold requestEvents requestUnpaid
  cases hhalted : env.halted with
  | true => simp [CallEnvironment.admitted, hhalted]
  | false =>
    rw [if_neg Bool.false_ne_true, if_neg Bool.false_ne_true, balance_append,
      CredentialCheck.balance_events]
    cases hresult : env.credential.result with
    | error cause => simp [CallEnvironment.admitted, hhalted, hresult, Except.isOk, Except.toBool]
    | ok u =>
      cases hacquired : env.acquired with
      | false => simp [CallEnvironment.admitted, hacquired]
      | true =>
        have hadmitted : env.admitted = true := by
          simp [CallEnvironment.admitted, hhalted, hresult, hacquired, Except.isOk, Except.toBool]
        have hturns := balance_flatMap (balance_attemptEvents S paginate path env (retries + 1))
        rw [hadmitted, if_pos rfl, Loop.trace_eq_flatMap]
        simp only [Bool.not_true, Bool.false_eq_true, if_false, balance_acquired, hturns,
          Bool.toNat_true]
        push_cast
        ring

theorem RevalidationEnvironment.balance_events (env : RevalidationEnvironment) :
    balance env.events = env.credential.unpaid.toNat := by
  unfold RevalidationEnvironment.events
  rw [balance_append, CredentialCheck.balance_events]
  have hrest : ∀ answer : Option UInt16, balance ([.acquired, .dispatched answer] ++
      if answer = some 304 then [.refunded] else []) = 0 := by
    intro answer
    by_cases h : answer = some 304
    · simp [h]
    · simp [h]
  cases env.credential.result with
  | error cause => simp
  | ok u =>
    dsimp only
    split
    · simp
    · split
      · simp
      · rw [hrest, add_zero]

/-- The call goes past the cache: the name is valid, and the entry is stale or missing. -/
def DetailsEnvironment.misses (env : DetailsEnvironment) (repoName : String) : Bool :=
  (S.sanitizePathSegment repoName).isOk && (env.cacheHit.filter fun cached => !cached.stale).isNone

/-- The call sends the full request: there was nothing to revalidate, or it fell through. -/
def DetailsEnvironment.fallsThrough (env : DetailsEnvironment) (repoName : String) : Bool :=
  env.misses S repoName &&
    (env.revalidated.bind (env.revalidation.tryEtagRevalidation S)).isNone

namespace ApiCall

/-- The call acquires the permit of its attempts. -/
def admitted : ApiCall → Bool
  | request _ _ _ env => env.admitted
  | repoDetails repoName env => env.fallsThrough S repoName && env.request.admitted

/-- The token exchanges of the call and its attempts that send a request. -/
def unpaid : ApiCall → ℕ
  | request path paginate retries env => requestUnpaid S paginate path env retries
  | repoDetails repoName env =>
    (if env.misses S repoName && env.revalidated.isSome
      then env.revalidation.credential.unpaid.toNat else 0) +
    match S.sanitizePathSegment repoName with
    | .error _ => 0
    | .ok safeName =>
      if env.fallsThrough S repoName
      then requestUnpaid S false (DetailClient.repoPath S safeName) env.request defaultMaxRetries
      else 0

theorem balance_events (call : ApiCall) :
    balance (call.events S) = call.unpaid S - (call.admitted S).toNat := by
  cases call with
  | request path paginate retries env => exact balance_requestEvents S paginate path env retries
  | repoDetails repoName env =>
    simp only [events, unpaid, admitted, repoDetailsEvents, DetailsEnvironment.fallsThrough,
      DetailsEnvironment.misses]
    obtain ⟨name, hname⟩ : ∃ name, S.sanitizePathSegment repoName = name := ⟨_, rfl⟩
    simp only [hname]
    cases name with
    | error e => simp [Except.isOk, Except.toBool]
    | ok safeName =>
      cases env.cacheHit.filter fun cached => !cached.stale with
      | some cached => simp
      | none =>
        simp only [Except.isOk, Except.toBool, Option.isNone_none, Bool.and_true, Bool.true_and]
        rw [balance_append]
        have hrevalidation : balance (if env.revalidated.isSome = true
            then env.revalidation.events else []) = if env.revalidated.isSome = true
            then env.revalidation.credential.unpaid.toNat else 0 := by
          split
          · exact env.revalidation.balance_events
          · rfl
        rw [hrevalidation]
        cases env.revalidated.bind (env.revalidation.tryEtagRevalidation S) with
        | some outcome => simp
        | none =>
          simp only [Option.isSome_none, Option.isNone_none, Bool.false_eq_true, if_false, if_true,
            Bool.true_and, balance_requestEvents]
          push_cast
          ring

end ApiCall

/-! ## Runs -/

/-- The gate grants at most its ceiling in an epoch; a permit given back is granted again. -/
def Granted (run : List ApiEvent) (ceilings : List ℕ) : Prop :=
  run.count .acquired ≤ run.count .refunded + ceilings.sum

/-- The calls of a run interleave; its charged requests are paid for when those of each call are. -/
theorem charged_le_of_within {calls : List ApiCall} {run : List ApiEvent} {ceilings : List ℕ}
    (hrun : run.Perm (calls.flatMap (ApiCall.events S))) (hgranted : Granted run ceilings)
    (hcalls : ∀ call ∈ calls, WithinPermits (call.events S)) :
    run.countP ApiEvent.isCharged ≤ ceilings.sum := by
  have hwithin : WithinPermits run := by
    rw [WithinPermits, hrun.countP_eq, hrun.count_eq, hrun.count_eq, ← WithinPermits]
    clear hrun hgranted
    induction calls with
    | nil => exact Nat.le_refl 0
    | cons call calls ih =>
      rw [List.forall_mem_cons, withinPermits_iff] at hcalls
      have hrest := (withinPermits_iff _).mp (ih hcalls.2)
      rw [withinPermits_iff, List.flatMap_cons, balance_append]
      omega
  unfold WithinPermits at hwithin
  unfold Granted at hgranted
  omega

/--
A call stays within its permits exactly when at most one request goes out without a permit of its
own, and none if the call acquires none; a run of such calls stays within the ceilings.
-/
theorem requests_within_permits_iff :
    (∀ call : ApiCall,
      WithinPermits (call.events S) ↔ call.unpaid S ≤ (call.admitted S).toNat) ∧
    ∀ (calls : List ApiCall) (run : List ApiEvent) (ceilings : List ℕ),
      run.Perm (calls.flatMap (ApiCall.events S)) → Granted run ceilings →
      (∀ call ∈ calls, call.unpaid S ≤ (call.admitted S).toNat) →
      run.countP ApiEvent.isCharged ≤ ceilings.sum := by
  have hcall : ∀ call : ApiCall,
      WithinPermits (call.events S) ↔ call.unpaid S ≤ (call.admitted S).toNat := by
    intro call
    rw [withinPermits_iff, call.balance_events S]
    omega
  refine ⟨hcall, fun calls run ceilings hrun hgranted hpaid => ?_⟩
  exact charged_le_of_within S hrun hgranted fun call hmem => (hcall call).mpr (hpaid call hmem)

end Calls

/-- An attempt whose requests are all answered with a status. -/
def sampleAttempt (status : UInt16) : CallAttempt where
  server _ _ := ⟨false, true, .ok ⟨status, [], none, []⟩⟩
  shouldHalt := false
  refresh := ⟨none, .ok ()⟩

/-- A request without pages, whose attempts are answered with the statuses in turn. -/
def sampleCall (retries : ℕ) (statuses : List UInt16) : ApiCall :=
  .request "/rate_limit" false retries
    ⟨false, ⟨none, .ok ()⟩, true, fun n => sampleAttempt (statuses.getD n 200)⟩

/-- A request that succeeds at once, under a gate that grants one permit. -/
theorem requests_within_permits_once :
    WithinPermits ((sampleCall 2 [200]).events sampleDetailSource) ∧
      ((sampleCall 2 [200]).events sampleDetailSource).countP ApiEvent.isCharged ≤ [1].sum := by
  obtain ⟨hcall, hrun⟩ := requests_within_permits_iff sampleDetailSource
  have hpaid : (sampleCall 2 [200]).unpaid sampleDetailSource ≤
      ((sampleCall 2 [200]).admitted sampleDetailSource).toNat := by decide +kernel
  refine ⟨(hcall _).mpr hpaid, hrun [sampleCall 2 [200]] _ _ ?_ ?_ ?_⟩
  · rw [List.flatMap_singleton]
  · unfold Granted
    decide +kernel
  · intro call hmem
    rw [List.mem_singleton.mp hmem]
    exact hpaid

/-- A retry sends a second request under the permit of the first one. -/
theorem not_requests_within_permits :
    ¬ ∀ (S : DetailSource) (call : ApiCall), WithinPermits (call.events S) := by
  intro h
  have hretried := h sampleDetailSource (sampleCall 1 [503, 200])
  revert hretried
  decide +kernel

end GhReport.GitHub
