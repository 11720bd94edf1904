import GhReport.Library.History

/-! # The partial publisher

While a sweep runs, a signal asks for a report. The publisher renders at once
when it is idle, holds down after each render, and joins the signals of a hold-down
into one render. When it is told to stop it leaves its loop, and renders once more
if a signal is still owed one.
-/

namespace GhReport.Collect.PartialPublisher

/-! ## Decisions -/

inductive PublisherState where
  | idle
  | holdingDown (dirty : Bool)
deriving DecidableEq

def PublisherState.isHoldingDown : PublisherState → Bool
  | idle => false
  | holdingDown _ => true

inductive LoopEvent where
  | signal
  | holdDownExpired
  | shutdownObserved
deriving DecidableEq

inductive BufferedSignal where
  | present
  | absent
deriving DecidableEq

/-- What a poll of the notification says, which takes its permit. -/
def BufferedSignal.drain (permit : Bool) : BufferedSignal := if permit then present else absent

inductive FinalRender where
  | required
  | notRequired
deriving DecidableEq

def FinalRender.atBarrier : PublisherState → BufferedSignal → FinalRender
  | .holdingDown true, _ | .idle, .present | .holdingDown false, .present => required
  | .idle, .absent | .holdingDown false, .absent => notRequired

inductive Transition where
  | exit (carriedSignal : BufferedSignal)
  | renderLeadingEdge
  | markDirty
  | renderCoalesced
  | parkIdle
deriving DecidableEq

def transition : (stopping : Bool) → PublisherState → LoopEvent → Transition
  | true, _, .signal => .exit .present
  | true, _, .holdDownExpired | true, _, .shutdownObserved | false, _, .shutdownObserved =>
    .exit .absent
  | false, .idle, .signal => .renderLeadingEdge
  | false, .holdingDown _, .signal => .markDirty
  | false, .holdingDown true, .holdDownExpired => .renderCoalesced
  | false, .idle, .holdDownExpired | false, .holdingDown false, .holdDownExpired => .parkIdle

/-! ## The loop -/

/-- Where the publisher is between two steps. -/
inductive Phase where
  | selecting (state : PublisherState)
  /-- An event was taken, and the shutdown flag is not read yet. -/
  | selected (state : PublisherState) (event : LoopEvent)
  /-- A render was decided on, and did not begin yet. -/
  | authorised
  | rendering
  /-- The loop is left, and the final render did not begin yet. -/
  | barrier (decision : FinalRender)
  | flushing
  | done
deriving DecidableEq

/-- The branches of the select. -/
inductive Branch where
  | notified
  | tick
  | holdDown
  | changed

/-- What happens around and inside the publisher. -/
inductive Move where
  | notify
  | send (shutdown : Bool)
  | select (branch : Branch)
  | decide
  | start
  | complete

/-- What a run leaves. A tick is a signal that arrives when it is taken. -/
inductive Event where
  | arrived
  | consumed
  | ticked
  | expired
  | shutdownObserved
  /-- The loop was left, and took a permit of the buffer along. -/
  | exited (drained : Bool)
  | renderStarted
deriving DecidableEq

/-- A notification holds one permit at most, however many signals arrived. -/
structure PublisherLoop where
  permit : Bool
  shutdown : Bool
  phase : Phase
deriving DecidableEq

namespace PublisherLoop

variable (s : PublisherLoop)

def start : PublisherLoop := ⟨false, false, .selecting .idle⟩

/-- Branches that are ready may be taken in any order. -/
def select (interval : Bool) (branch : Branch) : List Event × PublisherLoop :=
  match s.phase, branch with
  | .selecting state, .notified =>
    if s.permit then ([.consumed], { s with permit := false, phase := .selected state .signal })
    else ([], s)
  | .selecting state, .tick =>
    if interval then ([.ticked], { s with phase := .selected state .signal }) else ([], s)
  | .selecting state, .holdDown =>
    if state.isHoldingDown then ([.expired], { s with phase := .selected state .holdDownExpired })
    else ([], s)
  | .selecting state, .changed =>
    ([.shutdownObserved], { s with phase := .selected state .shutdownObserved })
  | _, _ => ([], s)

/-- The flag is read, and the transition is taken. -/
def decide : List Event × PublisherLoop :=
  match s.phase with
  | .selected state event =>
    match transition s.shutdown state event with
    | .exit .present =>
      ([.exited false], { s with phase := .barrier (.atBarrier state .present) })
    | .exit .absent =>
      let buffered := BufferedSignal.drain s.permit
      ([.exited (buffered = .present)],
        { s with permit := false, phase := .barrier (.atBarrier state buffered) })
    | .renderLeadingEdge | .renderCoalesced => ([], { s with phase := .authorised })
    | .markDirty => ([], { s with phase := .selecting (.holdingDown true) })
    | .parkIdle => ([], { s with phase := .selecting .idle })
  | _ => ([], s)

/-- A render begins, if one was decided on. -/
def begin : List Event × PublisherLoop :=
  match s.phase with
  | .authorised => ([.renderStarted], { s with phase := .rendering })
  | .barrier .required => ([.renderStarted], { s with phase := .flushing })
  | .barrier .notRequired => ([], { s with phase := .done })
  | _ => ([], s)

/-- The hold-down begins when the render is complete. -/
def complete : List Event × PublisherLoop :=
  match s.phase with
  | .rendering => ([], { s with phase := .selecting (.holdingDown false) })
  | .flushing => ([], { s with phase := .done })
  | _ => ([], s)

end PublisherLoop

/-- The publisher, with or without an interval, beside the senders of signals and of shutdown. -/
def machine (interval : Bool) : Machine PublisherLoop Move (List Event) where
  step s
    | .notify => ([.arrived], { s with permit := true })
    | .send shutdown => ([], { s with shutdown := shutdown })
    | .select branch => s.select interval branch
    | .decide => s.decide
    | .start => s.begin
    | .complete => s.complete

/-! ## What a step does -/

/-- The steps, with one event at most. -/
inductive Step : PublisherLoop → List Event → PublisherLoop → Prop where
  | stays {s : PublisherLoop} : Step s [] s
  | arrived {permit shutdown : Bool} {phase : Phase} :
      Step ⟨permit, shutdown, phase⟩ [.arrived] ⟨true, shutdown, phase⟩
  | sent {permit shutdown value : Bool} {phase : Phase} :
      Step ⟨permit, shutdown, phase⟩ [] ⟨permit, value, phase⟩
  | consumed {shutdown : Bool} {state : PublisherState} :
      Step ⟨true, shutdown, .selecting state⟩ [.consumed]
        ⟨false, shutdown, .selected state .signal⟩
  | ticked {permit shutdown : Bool} {state : PublisherState} :
      Step ⟨permit, shutdown, .selecting state⟩ [.ticked]
        ⟨permit, shutdown, .selected state .signal⟩
  | expired {permit shutdown dirty : Bool} :
      Step ⟨permit, shutdown, .selecting (.holdingDown dirty)⟩ [.expired]
        ⟨permit, shutdown, .selected (.holdingDown dirty) .holdDownExpired⟩
  | changed {permit shutdown : Bool} {state : PublisherState} :
      Step ⟨permit, shutdown, .selecting state⟩ [.shutdownObserved]
        ⟨permit, shutdown, .selected state .shutdownObserved⟩
  | carried {permit : Bool} {state : PublisherState} :
      Step ⟨permit, true, .selected state .signal⟩ [.exited false]
        ⟨permit, true, .barrier .required⟩
  | exited {permit shutdown : Bool} {state : PublisherState} {event : LoopEvent}
      (hevent : event ≠ .signal) :
      Step ⟨permit, shutdown, .selected state event⟩ [.exited permit]
        ⟨false, shutdown, .barrier (.atBarrier state (.drain permit))⟩
  | leading {permit : Bool} :
      Step ⟨permit, false, .selected .idle .signal⟩ [] ⟨permit, false, .authorised⟩
  | coalesced {permit : Bool} :
      Step ⟨permit, false, .selected (.holdingDown true) .holdDownExpired⟩ []
        ⟨permit, false, .authorised⟩
  | dirtied {permit dirty : Bool} :
      Step ⟨permit, false, .selected (.holdingDown dirty) .signal⟩ []
        ⟨permit, false, .selecting (.holdingDown true)⟩
  | parked {permit : Bool} {state : PublisherState} (hclean : state ≠ .holdingDown true) :
      Step ⟨permit, false, .selected state .holdDownExpired⟩ [] ⟨permit, false, .selecting .idle⟩
  | rendered {permit shutdown : Bool} :
      Step ⟨permit, shutdown, .authorised⟩ [.renderStarted] ⟨permit, shutdown, .rendering⟩
  | flushed {permit shutdown : Bool} :
      Step ⟨permit, shutdown, .barrier .required⟩ [.renderStarted] ⟨permit, shutdown, .flushing⟩
  | skipped {permit shutdown : Bool} :
      Step ⟨permit, shutdown, .barrier .notRequired⟩ [] ⟨permit, shutdown, .done⟩
  | heldDown {permit shutdown : Bool} :
      Step ⟨permit, shutdown, .rendering⟩ [] ⟨permit, shutdown, .selecting (.holdingDown false)⟩
  | finished {permit shutdown : Bool} :
      Step ⟨permit, shutdown, .flushing⟩ [] ⟨permit, shutdown, .done⟩

section Step

variable (s : PublisherLoop)

theorem step_select (interval : Bool) (branch : Branch) :
    Step s (s.select interval branch).1 (s.select interval branch).2 := by
  obtain ⟨permit, shutdown, phase⟩ := s
  cases phase with
  | selecting state =>
    cases branch with
    | notified =>
      cases permit with
      | true => exact .consumed
      | false => exact .stays
    | tick =>
      cases interval with
      | true => exact .ticked
      | false => exact .stays
    | holdDown =>
      cases state with
      | idle => exact .stays
      | holdingDown dirty => exact .expired
    | changed => exact .changed
  | selected | authorised | rendering | barrier | flushing | done => exact .stays

@[simp] theorem atBarrier_present (state : PublisherState) :
    FinalRender.atBarrier state .present = .required := by
  rcases state with _ | (_ | _) <;> rfl

/-- An exit that carries no signal takes the permit along. -/
theorem step_exit {permit shutdown : Bool} {state : PublisherState} {event : LoopEvent}
    (hevent : event ≠ .signal) (hexit : transition shutdown state event = .exit .absent) :
    Step ⟨permit, shutdown, .selected state event⟩
      (PublisherLoop.decide ⟨permit, shutdown, .selected state event⟩).1
      (PublisherLoop.decide ⟨permit, shutdown, .selected state event⟩).2 := by
  have hpermit : decide (BufferedSignal.drain permit = .present) = permit := by
    cases permit <;> rfl
  simp only [PublisherLoop.decide, hexit, hpermit]
  exact .exited hevent

theorem step_decide : Step s s.decide.1 s.decide.2 := by
  obtain ⟨permit, shutdown, phase⟩ := s
  cases phase with
  | selected state event =>
    cases event with
    | signal =>
      cases shutdown with
      | true =>
        simp only [PublisherLoop.decide, transition, atBarrier_present]
        exact .carried
      | false =>
        cases state with
        | idle => exact .leading
        | holdingDown dirty => exact .dirtied
    | holdDownExpired =>
      cases shutdown with
      | true => exact step_exit nofun rfl
      | false =>
        rcases state with _ | (_ | _)
        · exact @Step.parked permit .idle nofun
        · exact @Step.parked permit (.holdingDown false) nofun
        · exact .coalesced
    | shutdownObserved => cases shutdown <;> exact step_exit nofun rfl
  | selecting | authorised | rendering | barrier | flushing | done => exact .stays

theorem step_begin : Step s s.begin.1 s.begin.2 := by
  obtain ⟨permit, shutdown, phase⟩ := s
  cases phase with
  | authorised => exact .rendered
  | barrier decision =>
    cases decision with
    | required => exact .flushed
    | notRequired => exact .skipped
  | selecting | selected | rendering | flushing | done => exact .stays

theorem step_complete : Step s s.complete.1 s.complete.2 := by
  obtain ⟨permit, shutdown, phase⟩ := s
  cases phase with
  | rendering => exact .heldDown
  | flushing => exact .finished
  | selecting | selected | authorised | barrier | done => exact .stays

theorem step_machine (interval : Bool) (m : Move) :
    Step s ((machine interval).step s m).1 ((machine interval).step s m).2 := by
  cases m with
  | notify => exact .arrived
  | send shutdown => exact .sent
  | select branch => exact step_select s interval branch
  | decide => exact step_decide s
  | start => exact step_begin s
  | complete => exact step_complete s

/-- What the steps keep of the publisher and its history holds after every run. -/
theorem invariant_history {I : List Event → PublisherLoop → Prop}
    (hstep : ∀ {events s more s'}, I events s → Step s more s' → I (events ++ more) s')
    (hstart : I [] .start) (interval : Bool) (moves : List Move) :
    I ((machine interval).history .start moves) ((machine interval).after .start moves) :=
  Machine.history_invariant (fun _ s m h => hstep h (step_machine s interval m)) hstart moves

end Step

end GhReport.Collect.PartialPublisher
