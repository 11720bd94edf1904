import GhReport.GitHub.Dispatch
import GhReport.Library.History
import Mathlib.Algebra.GroupWithZero.Nat
import Mathlib.Order.MinMax

/-! # The rate-limit halt

An answer that leaves too little of the rate limit halts the client until its window is
over. A call looks at the halt before it starts, a listing before each of its pages, and a
revalidation before it is sent; what is under way goes on. The clock, the credential, the
permits and the rate limit itself are what a step meets.
-/

namespace GhReport.GitHub

/-! ## Calls -/

structure RequestCall where
  path : String
  paginate : Bool
  retries : ℕ

def RequestCall.attempts (call : RequestCall) : ℕ := call.retries + 1

/-- The full request for the details of a repository. -/
def RequestCall.details (path : String) : RequestCall := ⟨path, false, defaultMaxRetries⟩

/-- Where a task stands in its call; only a listing has pages. -/
inductive CallPhase where
  | idle
  | entered (call : RequestCall)
  | admitted (call : RequestCall)
  | sending (call : RequestCall) (loop : AttemptLoop)
  | paging (call : RequestCall) (listing : call.paginate = true) (loop : AttemptLoop)
      (pages : PageLoop)
  | turned (call : RequestCall) (listing : call.paginate = true) (loop : AttemptLoop)
      (pages : PageLoop)
  | answered (call : RequestCall) (loop : AttemptLoop) (result : AttemptResult)
  | revalidating (path : String) (cached : CachedResult)
  | conditional (path : String) (cached : CachedResult)

/-- The instant of the halt, zero if there is none, and the tasks that make calls. -/
structure HaltClient where
  haltedUntil : ℕ
  task : ℕ → CallPhase

/-- What a step meets; `shouldHalt` and `reset` are what the rate limit says. -/
structure StepEnvironment where
  now : ℕ
  credential : Except String Unit
  acquired : Bool
  sent : Except (String × Bool) (Response × Option String)
  reread : Option CachedResult
  shouldHalt : Bool
  reset : Option ℕ

namespace StepEnvironment

variable (env : StepEnvironment)

def response : Except (String × Bool) Response := env.sent.map Prod.fst

/-- A revalidation once it is to be sent. -/
def revalidation : RevalidationEnvironment :=
  ⟨⟨none, .ok ()⟩, false, true, env.sent, env.reread⟩

/-- An hour from now, if the end of the window is not known. -/
def haltUntil : ℕ := env.reset.getD (min (env.now + 3600) (2 ^ 64 - 1))

end StepEnvironment

/-- A task can be dropped wherever it awaits. -/
inductive HaltInput where
  | request (task : ℕ) (call : RequestCall)
  | revalidate (task : ℕ) (path : String) (cached : CachedResult)
  | advance (task : ℕ) (env : StepEnvironment)
  | drop (task : ℕ)
  | resetHalt

inductive HaltEvent where
  | checked (task now : ℕ) (halted : Bool)
  | noted (haltUntil : ℕ)
  | cleared
  | sent (task : ℕ) (answer : Except (String × Bool) Response)
  | finished (task : ℕ) (call : RequestCall) (run : RequestRun)
  | served (task : ℕ) (outcome : ApiOutcome)

/-- A call is refused before it has sent anything. -/
def HaltEvent.refused (task : ℕ) (call : RequestCall) : HaltEvent :=
  .finished task call ⟨.neverDispatched .haltedBeforeDispatch, false⟩

namespace HaltClient

variable (S : DetailSource) (s : HaltClient) (i : ℕ)

def setTask (phase : CallPhase) : HaltClient :=
  { s with task := Function.update s.task i phase }

def isHalted (now : ℕ) : Bool :=
  if s.haltedUntil = 0 then false else now < s.haltedUntil

def finish (call : RequestCall) (run : RequestRun) : List HaltEvent × HaltClient :=
  ([.finished i call run], s.setTask i .idle)

/-- The next attempt of a call, if it has one left. -/
def attempt (call : RequestCall) (loop : AttemptLoop) : List HaltEvent × HaltClient :=
  if loop.attempt < call.attempts then
    if h : call.paginate = true then
      ([], s.setTask i (.paging call h loop ⟨S.client.baseUrl ++ call.path, 0, []⟩))
    else ([], s.setTask i (.sending call loop))
  else
    s.finish i call
      (.fromAttempt (.failure (.http 401 "unauthorized" false)) (call.attempts - 1) false)

/-- A page is answered: the listing has its result, or goes on to the next page. -/
def receivePage (call : RequestCall) (listing : call.paginate = true) (loop : AttemptLoop)
    (pages : PageLoop) : Except (String × Bool) Response → CallPhase
  | .error (error, timeout) => .answered call loop (.failure (.transport error timeout))
  | .ok response =>
    match pages.receive S.client response with
    | .inl result => .answered call loop result
    | .inr pages => .paging call listing loop pages

/-- After an attempt: the rate limit may halt the client, and the call is retried or returns. -/
def conclude (call : RequestCall) (loop : AttemptLoop) (result : AttemptResult)
    (env : StepEnvironment) : List HaltEvent × HaltClient :=
  if env.shouldHalt then
    ([.noted env.haltUntil, .finished i call (.fromAttempt result loop.attempt true)],
      { s.setTask i .idle with haltedUntil := max s.haltedUntil env.haltUntil })
  else if result.statusCode = some 401 ∧ ¬ loop.staleTokenRetried ∧
      loop.attempt < call.attempts - 1 then
    match env.credential with
    | .error cause =>
      s.finish i call (.fromAttempt (.failure (.credentialRefreshFailed cause)) loop.attempt false)
    | .ok () => s.attempt S i call ⟨loop.attempt + 1, true⟩
  else if result.isRetryable ∧ loop.attempt < call.attempts - 1 then
    s.attempt S i call { loop with attempt := loop.attempt + 1 }
  else s.finish i call (.fromAttempt result loop.attempt false)

/-- A task makes its next step. -/
def advance (env : StepEnvironment) : List HaltEvent × HaltClient :=
  match s.task i with
  | .idle => ([], s)
  | .entered call =>
    if s.isHalted env.now then ([.checked i env.now true, .refused i call], s.setTask i .idle)
    else ([.checked i env.now false], s.setTask i (.admitted call))
  | .admitted call =>
    match env.credential with
    | .error cause => s.finish i call ⟨.neverDispatched (.credentialRefreshFailed cause), false⟩
    | .ok () =>
      if !env.acquired then s.finish i call ⟨.neverDispatched .budgetAcquireCancelled, false⟩
      else s.attempt S i call ⟨0, false⟩
  | .sending call loop =>
    ([.sent i env.response],
      s.setTask i (.answered call loop (requestSingle S env.response)))
  | .paging call listing loop pages =>
    let pages := { pages with pageCount := pages.pageCount + 1 }
    if pages.pageCount > maxPaginationPages then
      ([], s.setTask i (.answered call loop (pages.done true)))
    else if s.isHalted env.now then
      ([.checked i env.now true], s.setTask i (.answered call loop (pages.done true)))
    else ([.checked i env.now false], s.setTask i (.turned call listing loop pages))
  | .turned call listing loop pages =>
    if pages.pageCount > 1 && !env.acquired then
      ([], s.setTask i (.answered call loop (pages.done true)))
    else
      ([.sent i env.response],
        s.setTask i (receivePage S call listing loop pages env.response))
  | .answered call loop result => s.conclude S i call loop result env
  | .revalidating path cached =>
    match env.credential with
    | .error _ => ([], s.setTask i (.entered (.details path)))
    | .ok () =>
      if s.isHalted env.now then
        ([.checked i env.now true], s.setTask i (.entered (.details path)))
      else ([.checked i env.now false], s.setTask i (.conditional path cached))
  | .conditional path cached =>
    if !env.acquired then ([], s.setTask i (.entered (.details path)))
    else match env.revalidation.tryEtagRevalidation S cached with
      | some outcome => ([.sent i env.response, .served i outcome], s.setTask i .idle)
      | none => ([.sent i env.response], s.setTask i (.entered (.details path)))

/-- A task that makes no call starts one. -/
def start (phase : CallPhase) : List HaltEvent × HaltClient :=
  match s.task i with
  | .idle => ([], s.setTask i phase)
  | _ => ([], s)

/-- A client that is not halted, and makes no calls. -/
def init : HaltClient := ⟨0, fun _ => .idle⟩

end HaltClient

def haltMachine (S : DetailSource) : Machine HaltClient HaltInput (List HaltEvent) where
  step s input :=
    match input with
    | .request i call => s.start i (.entered call)
    | .revalidate i path cached =>
      s.start i (if cached.etag.isSome then .revalidating path cached else .entered (.details path))
    | .advance i env => s.advance S i env
    | .drop i => ([], s.setTask i .idle)
    | .resetHalt => ([.cleared], { s with haltedUntil := 0 })

/-! ## What the history says -/

/-- A call is over that was not refused. -/
def HaltEvent.Ends : HaltEvent → Prop
  | finished _ _ ⟨.neverDispatched .haltedBeforeDispatch, _⟩ => False
  | finished .. | served .. => True
  | _ => False

def HaltEvent.isSentBy (i : ℕ) : HaltEvent → Bool
  | sent j _ => j = i
  | _ => false

/-- When the task looked at the halt, and what it found. -/
def HaltEvent.look (i : ℕ) : HaltEvent → Option (ℕ × Bool)
  | checked j now halted => if j = i then some (now, halted) else none
  | _ => none

def lastLook (i : ℕ) (events : List HaltEvent) : Option (ℕ × Bool) :=
  (events.filterMap (HaltEvent.look i)).getLast?

/-- The halt was noted, and not cleared since. -/
def Standing (haltUntil : ℕ) (events : List HaltEvent) : Prop :=
  History.Awaits (fun _ e => e = .noted haltUntil) .cleared events

/--
A look finds a halt that stands beyond the clock, if there is one. Whoever sends found none
when it last looked, and whoever is refused found one.
-/
def Looks (before : List HaltEvent) : HaltEvent → Prop
  | .checked _ now halted =>
    halted = true ↔ ∃ haltUntil, now < haltUntil ∧ Standing haltUntil before
  | .sent i _ => ∃ now, lastLook i before = some (now, false)
  | .finished i _ ⟨.neverDispatched .haltedBeforeDispatch, _⟩ =>
    ∃ now, lastLook i before = some (now, true)
  | _ => True

/-- The attempts from one on; those of a listing look at the halt again. -/
def RequestCall.left (call : RequestCall) (attempt : ℕ) : ℕ :=
  if call.paginate then 0 else call.attempts - attempt

/-- How often a task may send before it looks at the halt again. -/
def CallPhase.allowance : CallPhase → ℕ
  | admitted call => call.left 0
  | sending call loop => call.left (loop.attempt + 1) + 1
  | answered call loop _ => call.left (loop.attempt + 1)
  | turned .. | conditional .. => 1
  | _ => 0

/-- No clock is read that is not before the end of the halt, and the halt is not cleared. -/
def HaltInput.Before (haltUntil : ℕ) : HaltInput → Prop
  | advance _ env => env.now < haltUntil
  | resetHalt => False
  | _ => True

/-! ## What a step does -/

theorem RequestCall.left_of_listing {call : RequestCall} (h : call.paginate = true)
    (attempt : ℕ) : call.left attempt = 0 := if_pos h

theorem HaltEvent.ends_fromAttempt (i : ℕ) (call : RequestCall) (result : AttemptResult)
    (attempt : ℕ) (haltTriggered : Bool) :
    Ends (.finished i call (.fromAttempt result attempt haltTriggered)) := by
  cases result <;> trivial

namespace HaltClient

variable {S : DetailSource} {s s' : HaltClient} {i j : ℕ}

@[simp] theorem setTask_task_self (phase : CallPhase) : (s.setTask i phase).task i = phase :=
  Function.update_self ..

theorem setTask_task_ne (phase : CallPhase) (h : j ≠ i) : (s.setTask i phase).task j = s.task j :=
  Function.update_of_ne h ..

theorem isHalted_iff {now : ℕ} : s.isHalted now = true ↔ now < s.haltedUntil := by
  unfold isHalted
  split
  · rename_i hnone
    rw [hnone]
    exact iff_of_false Bool.false_ne_true (Nat.not_lt_zero now)
  · exact decide_eq_true_iff

/-- What a step says and leaves, by what it meets. -/
inductive Moves (s : HaltClient) : HaltInput → List HaltEvent → HaltClient → Prop
  | stay {input : HaltInput} : Moves s input [] s
  | quiet {input : HaltInput} {i : ℕ} {ends : List HaltEvent} {phase : CallPhase}
      (hends : ∀ e ∈ ends, e.Ends) (hphase : phase.allowance ≤ (s.task i).allowance) :
      Moves s input ends (s.setTask i phase)
  | halted {i : ℕ} {env : StepEnvironment} {ends : List HaltEvent} {phase : CallPhase}
      (hhalted : s.isHalted env.now = true) (hends : ends = [] ∨ ∃ call, ends = [.refused i call])
      (hphase : phase.allowance = 0) :
      Moves s (.advance i env) (.checked i env.now true :: ends) (s.setTask i phase)
  | free {i : ℕ} {env : StepEnvironment} {phase : CallPhase} (hfree : s.isHalted env.now = false) :
      Moves s (.advance i env) [.checked i env.now false] (s.setTask i phase)
  | sent {i : ℕ} {env : StepEnvironment} {ends : List HaltEvent} {phase : CallPhase}
      (hends : ∀ e ∈ ends, e.Ends) (hphase : phase.allowance < (s.task i).allowance) :
      Moves s (.advance i env) (.sent i env.response :: ends) (s.setTask i phase)
  | noted {i : ℕ} {env : StepEnvironment} {call : RequestCall} {run : RequestRun}
      (hends : HaltEvent.Ends (.finished i call run)) :
      Moves s (.advance i env) [.noted env.haltUntil, .finished i call run]
        { s.setTask i .idle with haltedUntil := max s.haltedUntil env.haltUntil }
  | cleared : Moves s .resetHalt [.cleared] { s with haltedUntil := 0 }

theorem moves_setTask {input : HaltInput} {phase : CallPhase}
    (hphase : phase.allowance ≤ (s.task i).allowance) : Moves s input [] (s.setTask i phase) :=
  .quiet (List.forall_mem_nil _) hphase

theorem moves_start {input : HaltInput} {phase : CallPhase} (hphase : phase.allowance = 0) :
    Moves s input (s.start i phase).1 (s.start i phase).2 := by
  unfold start
  split
  · exact moves_setTask (hphase.trans_le (Nat.zero_le _))
  · exact .stay

theorem moves_finish {input : HaltInput} {call : RequestCall} {run : RequestRun}
    (hends : HaltEvent.Ends (.finished i call run)) :
    Moves s input (s.finish i call run).1 (s.finish i call run).2 :=
  .quiet (List.forall_mem_singleton.mpr hends) (Nat.zero_le _)

theorem moves_attempt {input : HaltInput} {call : RequestCall} {loop : AttemptLoop}
    (hleft : call.left loop.attempt ≤ (s.task i).allowance) :
    Moves s input (s.attempt S i call loop).1 (s.attempt S i call loop).2 := by
  unfold attempt
  split
  · rename_i hattempt
    split
    · exact moves_setTask (Nat.zero_le _)
    · rename_i hsingle
      refine moves_setTask (le_trans ?_ hleft)
      simp only [CallPhase.allowance, RequestCall.left, if_neg hsingle]
      omega
  · exact moves_finish (HaltEvent.ends_fromAttempt ..)

theorem allowance_receivePage {call : RequestCall} (listing : call.paginate = true)
    (loop : AttemptLoop) (pages : PageLoop) (sent : Except (String × Bool) Response) :
    (receivePage S call listing loop pages sent).allowance = 0 := by
  unfold receivePage
  split
  · exact RequestCall.left_of_listing listing _
  · split
    · exact RequestCall.left_of_listing listing _
    · rfl

theorem moves_conclude {call : RequestCall} {loop : AttemptLoop} {result : AttemptResult}
    {env : StepEnvironment} (hphase : s.task i = .answered call loop result) :
    Moves s (.advance i env) (s.conclude S i call loop result env).1
      (s.conclude S i call loop result env).2 := by
  have hleft : call.left (loop.attempt + 1) ≤ (s.task i).allowance := by rw [hphase]; rfl
  unfold conclude
  split
  · exact .noted (HaltEvent.ends_fromAttempt ..)
  · split
    · split
      · exact moves_finish (HaltEvent.ends_fromAttempt ..)
      · exact moves_attempt hleft
    · split
      · exact moves_attempt hleft
      · exact moves_finish (HaltEvent.ends_fromAttempt ..)

theorem moves_advance (env : StepEnvironment) :
    Moves s (.advance i env) (s.advance S i env).1 (s.advance S i env).2 := by
  unfold advance
  cases hphase : s.task i with
  | idle => exact .stay
  | entered call =>
    dsimp only
    split
    · rename_i hhalted
      exact .halted hhalted (.inr ⟨call, rfl⟩) rfl
    · rename_i hfree
      exact .free (Bool.eq_false_iff.mpr hfree)
  | admitted call =>
    dsimp only
    split
    · exact moves_finish trivial
    · split
      · exact moves_finish trivial
      · exact moves_attempt (by rw [hphase]; rfl)
  | sending call loop =>
    refine .sent (List.forall_mem_nil _) ?_
    rw [hphase]
    exact Nat.lt_succ_self _
  | paging call listing loop pages =>
    have hanswered : ∀ result, (CallPhase.answered call loop result).allowance = 0 :=
      fun _ => RequestCall.left_of_listing listing _
    dsimp only
    split
    · exact moves_setTask ((hanswered _).trans_le (Nat.zero_le _))
    · split
      · rename_i hhalted
        exact .halted hhalted (.inl rfl) (hanswered _)
      · rename_i hfree
        exact .free (Bool.eq_false_iff.mpr hfree)
  | turned call listing loop pages =>
    dsimp only
    split
    · exact moves_setTask ((RequestCall.left_of_listing listing _).trans_le (Nat.zero_le _))
    · refine .sent (List.forall_mem_nil _) ?_
      rw [hphase, allowance_receivePage]
      exact Nat.zero_lt_one
  | answered call loop result => exact moves_conclude hphase
  | revalidating path cached =>
    dsimp only
    split
    · exact moves_setTask (Nat.zero_le _)
    · split
      · rename_i hhalted
        exact .halted hhalted (.inl rfl) rfl
      · rename_i hfree
        exact .free (Bool.eq_false_iff.mpr hfree)
  | conditional path cached =>
    have hone : 0 < (s.task i).allowance := by rw [hphase]; exact Nat.zero_lt_one
    dsimp only
    split
    · exact moves_setTask (Nat.zero_le _)
    · split
      · exact .sent (List.forall_mem_singleton.mpr trivial) hone
      · exact .sent (List.forall_mem_nil _) hone

theorem moves_step (input : HaltInput) :
    Moves s input ((haltMachine S).step s input).1 ((haltMachine S).step s input).2 := by
  cases input with
  | request i call => exact moves_start rfl
  | revalidate i path cached =>
    refine moves_start ?_
    split <;> rfl
  | advance i env => exact moves_advance env
  | drop i => exact moves_setTask (Nat.zero_le _)
  | resetHalt => exact .cleared

end HaltClient

/-! ## What an event says -/

section Events

variable {events : List HaltEvent} {e : HaltEvent} {i : ℕ}

theorem lastLook_concat (i : ℕ) (events : List HaltEvent) (e : HaltEvent) :
    lastLook i (events ++ [e]) = (e.look i).or (lastLook i events) := by
  unfold lastLook
  rw [List.filterMap_append, List.getLast?_append]
  cases h : e.look i with
  | none => rw [List.filterMap_cons_none h]; rfl
  | some found => rw [List.filterMap_cons_some h]; rfl

theorem standing_concat_iff {haltUntil : ℕ} :
    Standing haltUntil (events ++ [e]) ↔
      e = .noted haltUntil ∨ Standing haltUntil events ∧ e ≠ .cleared :=
  History.awaits_concat_iff e

theorem not_standing_cleared {haltUntil : ℕ} : ¬ Standing haltUntil (events ++ [.cleared]) := by
  intro h
  rcases standing_concat_iff.mp h with h | h
  · cases h
  · exact h.2 rfl

/-- Neither a look nor a change of the halt. -/
structure HaltEvent.Silent (e : HaltEvent) : Prop where
  look : ∀ i, e.look i = none
  noted : ∀ haltUntil, e ≠ .noted haltUntil
  cleared : e ≠ .cleared

theorem HaltEvent.silent_sent (i : ℕ) (answer : Except (String × Bool) Response) :
    Silent (.sent i answer) :=
  ⟨fun _ => rfl, nofun, nofun⟩

theorem HaltEvent.silent_finished (i : ℕ) (call : RequestCall) (run : RequestRun) :
    Silent (.finished i call run) :=
  ⟨fun _ => rfl, nofun, nofun⟩

theorem HaltEvent.Ends.silent (h : e.Ends) : e.Silent := by
  cases e with
  | finished task call run => exact silent_finished task call run
  | served task outcome => exact ⟨fun _ => rfl, nofun, nofun⟩
  | checked | noted | cleared | sent => exact h.elim

theorem HaltEvent.Ends.looks (h : e.Ends) (before : List HaltEvent) : Looks before e := by
  unfold Looks
  split
  · exact h.elim
  · exact h.elim
  · exact h.elim
  · trivial

theorem HaltEvent.Ends.not_sent (h : e.Ends) : e.isSentBy i = false := by
  cases e with
  | sent => exact h.elim
  | _ => rfl

theorem HaltEvent.countP_ends {ends : List HaltEvent} (h : ∀ e ∈ ends, e.Ends) :
    ends.countP (HaltEvent.isSentBy i) = 0 := by
  rw [List.countP_eq_zero]
  intro e he
  rw [(h e he).not_sent]
  exact Bool.false_ne_true

end Events

namespace HaltClient

variable {S : DetailSource} {s s' : HaltClient} {i j : ℕ} {events : List HaltEvent}

theorem allowance_setTask_le {phase : CallPhase} (hphase : phase.allowance ≤ (s.task i).allowance) :
    ((s.setTask i phase).task j).allowance ≤ (s.task j).allowance := by
  rcases eq_or_ne j i with rfl | hne
  · rwa [setTask_task_self]
  · rw [setTask_task_ne phase hne]

/-- The instant is the latest that stands, and who may send has found the client free. -/
structure Follows (events : List HaltEvent) (s : HaltClient) : Prop where
  halted : ∀ now, now < s.haltedUntil ↔ ∃ haltUntil, now < haltUntil ∧ Standing haltUntil events
  looks : History.Always Looks events
  free : ∀ i, 0 < (s.task i).allowance → ∃ now, lastLook i events = some (now, false)

theorem follows_init : init.Follows [] where
  halted now := by
    refine iff_of_false (Nat.not_lt_zero now) ?_
    rintro ⟨haltUntil, -, hstanding⟩
    exact History.not_awaits_nil hstanding
  looks := .nil
  free i h := absurd h (Nat.lt_irrefl 0)

theorem Follows.setTask {phase : CallPhase} (h : s.Follows events)
    (hphase : phase.allowance ≤ (s.task i).allowance) : (s.setTask i phase).Follows events where
  halted := h.halted
  looks := h.looks
  free j hj := h.free j (hj.trans_le (allowance_setTask_le hphase))

/-- An event that is no look, with the instant that stands after it. -/
theorem Follows.concat {e : HaltEvent} {haltedUntil : ℕ} (h : s.Follows events)
    (he : ∀ i, e.look i = none) (hlooks : Looks events e)
    (hhalted : ∀ now, now < haltedUntil ↔
      ∃ haltUntil, now < haltUntil ∧ Standing haltUntil (events ++ [e])) :
    HaltClient.Follows (events ++ [e]) { s with haltedUntil := haltedUntil } where
  halted := hhalted
  looks := (History.always_concat_iff e).mpr ⟨h.looks, hlooks⟩
  free j hj := by
    rw [lastLook_concat, he j]
    exact h.free j hj

theorem Follows.silent {e : HaltEvent} (h : s.Follows events) (he : e.Silent)
    (hlooks : Looks events e) : s.Follows (events ++ [e]) := by
  refine h.concat he.look hlooks fun now => ?_
  simp only [standing_concat_iff, he.noted, false_or, and_iff_left he.cleared]
  exact h.halted now

theorem Follows.noted (h : s.Follows events) (haltUntil : ℕ) :
    HaltClient.Follows (events ++ [.noted haltUntil])
      { s with haltedUntil := max s.haltedUntil haltUntil } := by
  refine h.concat (fun _ => rfl) trivial fun now => ?_
  simp only [standing_concat_iff, HaltEvent.noted.injEq, reduceCtorEq, ne_eq, not_false_eq_true,
    and_true, lt_max_iff, h.halted now]
  constructor
  · rintro (⟨earlier, hlt, hstanding⟩ | hlt)
    · exact ⟨earlier, hlt, .inr hstanding⟩
    · exact ⟨_, hlt, .inl rfl⟩
  · rintro ⟨earlier, hlt, rfl | hstanding⟩
    · exact .inr hlt
    · exact .inl ⟨earlier, hlt, hstanding⟩

theorem Follows.cleared (h : s.Follows events) :
    HaltClient.Follows (events ++ [.cleared]) { s with haltedUntil := 0 } := by
  refine h.concat (fun _ => rfl) trivial fun now => ?_
  refine iff_of_false (Nat.not_lt_zero now) ?_
  rintro ⟨haltUntil, -, hstanding⟩
  exact not_standing_cleared hstanding

theorem Follows.ends {ends : List HaltEvent} (h : s.Follows events) (hends : ∀ e ∈ ends, e.Ends) :
    s.Follows (events ++ ends) := by
  induction ends generalizing events with
  | nil => rwa [List.append_nil]
  | cons e ends ih =>
    rw [List.forall_mem_cons] at hends
    rw [List.append_cons]
    exact ih (h.silent hends.1.silent (hends.1.looks events)) hends.2

/-- A task looks at the halt, and goes on to send only if it found none. -/
theorem Follows.checked {now : ℕ} {halted : Bool} {phase : CallPhase} (h : s.Follows events)
    (hhalted : s.isHalted now = halted) (hphase : halted = true → phase.allowance = 0) :
    (s.setTask i phase).Follows (events ++ [.checked i now halted]) where
  halted t := by
    simp only [standing_concat_iff, reduceCtorEq, false_or, ne_eq, not_false_eq_true, and_true]
    exact h.halted t
  looks := by
    refine (History.always_concat_iff _).mpr ⟨h.looks, ?_⟩
    rw [← hhalted]
    exact isHalted_iff.trans (h.halted now)
  free j hj := by
    rw [lastLook_concat]
    rcases eq_or_ne j i with rfl | hne
    · rw [setTask_task_self] at hj
      have hfree : halted = false := Bool.eq_false_iff.mpr fun hh => hj.ne' (hphase hh)
      exact ⟨now, by rw [hfree, HaltEvent.look, if_pos rfl]; rfl⟩
    · rw [setTask_task_ne phase hne] at hj
      rw [HaltEvent.look, if_neg (Ne.symm hne)]
      exact h.free j hj

theorem Follows.moves {input : HaltInput} {said : List HaltEvent} (h : s.Follows events)
    (hmoves : Moves s input said s') : s'.Follows (events ++ said) := by
  cases hmoves with
  | stay => rwa [List.append_nil]
  | quiet hends hphase => exact (h.setTask hphase).ends hends
  | @halted i env ends phase hhalted hends hphase =>
    have hchecked : (s.setTask i phase).Follows (events ++ [.checked i env.now true]) :=
      h.checked hhalted fun _ => hphase
    rcases hends with rfl | ⟨call, rfl⟩
    · exact hchecked
    · rw [List.append_cons]
      refine hchecked.silent (HaltEvent.silent_finished ..) ⟨env.now, ?_⟩
      rw [lastLook_concat, HaltEvent.look, if_pos rfl]
      rfl
  | free hfree => exact h.checked hfree nofun
  | @sent i env ends phase hends hphase =>
    rw [List.append_cons]
    have hsent :=
      h.silent (HaltEvent.silent_sent i env.response) (h.free i (Nat.zero_lt_of_lt hphase))
    exact (hsent.setTask hphase.le).ends hends
  | @noted i env call run hends =>
    rw [List.append_cons]
    have hidle : (s.setTask i .idle).Follows events := h.setTask (Nat.zero_le _)
    exact (hidle.noted env.haltUntil).silent (HaltEvent.silent_finished i call run) (hends.looks _)
  | cleared => exact h.cleared

/-- A step within the halt sends out of the allowance of its task, and keeps the halt. -/
theorem Moves.paid {haltUntil : ℕ} {input : HaltInput} {said : List HaltEvent}
    (hmoves : Moves s input said s') (hhalted : haltUntil ≤ s.haltedUntil)
    (hbefore : input.Before haltUntil) (i : ℕ) :
    haltUntil ≤ s'.haltedUntil ∧
      said.countP (HaltEvent.isSentBy i) + (s'.task i).allowance ≤ (s.task i).allowance := by
  cases hmoves with
  | stay => exact ⟨hhalted, (Nat.zero_add _).le⟩
  | @quiet _ j ends phase hends hphase =>
    refine ⟨hhalted, ?_⟩
    rw [HaltEvent.countP_ends hends, Nat.zero_add]
    exact allowance_setTask_le hphase
  | @halted j env ends phase hfound hends hphase =>
    refine ⟨hhalted, ?_⟩
    have hnone : (HaltEvent.checked j env.now true :: ends).countP (HaltEvent.isSentBy i) = 0 := by
      rcases hends with rfl | ⟨call, rfl⟩ <;> rfl
    rw [hnone, Nat.zero_add]
    exact allowance_setTask_le (hphase.trans_le (Nat.zero_le _))
  | @free j env phase hfree =>
    have hfound : s.isHalted env.now = true :=
      isHalted_iff.mpr (Nat.lt_of_lt_of_le hbefore hhalted)
    rw [hfree] at hfound
    cases hfound
  | @sent j env ends phase hends hphase =>
    refine ⟨hhalted, ?_⟩
    rw [List.countP_cons, HaltEvent.countP_ends hends, Nat.zero_add]
    rcases eq_or_ne i j with rfl | hne
    · rw [setTask_task_self, HaltEvent.isSentBy, if_pos (decide_eq_true rfl)]
      omega
    · rw [setTask_task_ne phase hne, HaltEvent.isSentBy, if_neg (by simpa using Ne.symm hne)]
      exact (Nat.zero_add _).le
  | @noted j env call run hends =>
    refine ⟨hhalted.trans (Nat.le_max_left _ _), ?_⟩
    have hnone : [HaltEvent.noted env.haltUntil, .finished j call run].countP
        (HaltEvent.isSentBy i) = 0 := rfl
    rw [hnone, Nat.zero_add]
    exact allowance_setTask_le (Nat.zero_le _)
  | cleared => exact hbefore.elim

theorem follows_history (S : DetailSource) (inputs : List HaltInput) :
    ((haltMachine S).after init inputs).Follows ((haltMachine S).history init inputs) :=
  Machine.history_invariant (I := fun events (s : HaltClient) => s.Follows events)
    (fun _ _ input h => h.moves (moves_step input)) follows_init inputs

end HaltClient

/-! ## Runs -/

section Runs

variable (S : DetailSource)

/--
Over every run, each look finds what was noted, and a request is sent only by a task that found
no halt when it last looked; a call that is refused found one.
-/
theorem haltMachine_looks (inputs : List HaltInput) :
    History.Always Looks ((haltMachine S).history .init inputs) :=
  (HaltClient.follows_history S inputs).looks

variable {S}

/--
While a halt stands and is not over, a task sends no more than it was allowed when the halt was
noted: the page that is next in a listing, the attempts of a call under way, and nothing of a
call that comes later.
-/
theorem sends_after_halt_le {earlier later : List HaltInput} {haltUntil : ℕ}
    (hnoted : Standing haltUntil ((haltMachine S).history .init earlier))
    (hbefore : ∀ input ∈ later, input.Before haltUntil) (i : ℕ) :
    ((haltMachine S).history ((haltMachine S).after .init earlier) later).countP
        (HaltEvent.isSentBy i) ≤
      (((haltMachine S).after .init earlier).task i).allowance := by
  have hhalted : haltUntil ≤ ((haltMachine S).after .init earlier).haltedUntil := by
    by_contra hlt
    rw [not_le] at hlt
    have hstands := ((HaltClient.follows_history S earlier).halted _).mpr ⟨haltUntil, hlt, hnoted⟩
    exact Nat.lt_irrefl _ hstands
  exact Machine.countP_history_le (I := fun s : HaltClient => haltUntil ≤ s.haltedUntil)
    (f := fun s => (s.task i).allowance)
    (fun _ input hs hinput => (HaltClient.moves_step input).paid hs hinput i) hhalted hbefore

/-- A server that is out of reach; the window of the rate limit ends at the time given. -/
def sampleStep (now reset : ℕ) (shouldHalt : Bool) : StepEnvironment where
  now := now
  credential := .ok ()
  acquired := true
  sent := .error ("unreachable", false)
  reread := none
  shouldHalt := shouldHalt
  reset := some reset

-- the call of one task halts the client, so that of the other is refused
example :
    (haltMachine sampleDetailSource).history .init
      ([.request 0 ⟨"/user", false, 0⟩, .request 1 ⟨"/user", false, 0⟩] ++
        List.replicate 4 (.advance 0 (sampleStep 100 160 true)) ++
        [.advance 1 (sampleStep 130 160 false)]) =
      [.checked 0 100 false, .sent 0 (.error ("unreachable", false)), .noted 160,
        .finished 0 ⟨"/user", false, 0⟩ ⟨.failed (.transport "unreachable" false) 1, true⟩,
        .checked 1 130 true, .refused 1 ⟨"/user", false, 0⟩] := rfl

end Runs

end GhReport.GitHub
