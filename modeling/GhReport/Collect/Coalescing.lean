import GhReport.Collect.PartialPublisher

/-! # Signals are joined and not dropped

Every signal that arrives before the publisher leaves its loop is followed by a
render that starts after it. Renders are as far apart as the hold-downs, one at
most follows a shutdown, and each has a signal of its own.
-/

namespace GhReport.Collect.PartialPublisher

open History

/-! ## Signals are followed by a render -/

def Phase.exited : Phase → Bool
  | barrier _ | flushing | done => true
  | selecting _ | selected _ _ | authorised | rendering => false

/-- A signal was taken, and no render that started after it. -/
def Phase.owes : Phase → Bool
  | selecting state => state = .holdingDown true
  | selected state event => state = .holdingDown true || event = .signal
  | authorised => true
  | barrier decision => decision = .required
  | rendering | flushing | done => false

/-- The loop took a signal. -/
def Taken (e : Event) : Prop := e = .consumed ∨ e = .ticked

/-- A signal arrived, or was taken, before the loop was left. -/
def Signalled (before : List Event) (e : Event) : Prop :=
  (e = .arrived ∨ Taken e) ∧ ∀ drained, .exited drained ∉ before

/-- What waits for a render is owed one, or is still in the buffer of the loop. -/
structure Serves (events : List Event) (s : PublisherLoop) : Prop where
  exited : (∃ drained, .exited drained ∈ events) ↔ s.phase.exited = true
  taken : Awaits (fun _ => Taken) .renderStarted events → s.phase.owes = true
  signalled : Awaits Signalled .renderStarted events →
    s.phase.owes = true ∨ s.permit = true ∧ s.phase.exited = false

theorem serves_start : Serves [] .start where
  exited := by simp [PublisherLoop.start, Phase.exited]
  taken h := absurd h not_awaits_nil
  signalled h := absurd h not_awaits_nil

variable {events : List Event} {s s' : PublisherLoop} {more : List Event}

/-- A step without events owes what was owed, and keeps the buffer. -/
theorem Serves.silent (h : Serves events s) (hexited : s'.phase.exited = s.phase.exited)
    (howes : s.phase.owes = true → s'.phase.owes = true)
    (hpermit : s.permit = true → s'.permit = true) : Serves events s' where
  exited := by rw [hexited, h.exited]
  taken hawaits := howes (h.taken hawaits)
  signalled hawaits := by
    rw [hexited]
    exact (h.signalled hawaits).imp howes (And.imp_left hpermit)

theorem exited_concat_iff {e : Event} (he : ∀ drained, e ≠ .exited drained) :
    (∃ drained, .exited drained ∈ events ++ [e]) ↔ ∃ drained, .exited drained ∈ events := by
  simp only [List.mem_append, List.mem_singleton]
  exact exists_congr fun drained => or_iff_left (he drained).symm

/-- An event that is no signal, no render and no exit. -/
theorem Serves.event (h : Serves events s) {e : Event}
    (he : e = .expired ∨ e = .shutdownObserved) : Serves (events ++ [e]) s := by
  have hother : ¬ Taken e ∧ e ≠ .arrived ∧ ∀ drained, e ≠ .exited drained := by
    rcases he with rfl | rfl <;> simp [Taken]
  obtain ⟨htaken, harrived, hexited⟩ := hother
  constructor
  · rw [exited_concat_iff hexited, h.exited]
  · rw [awaits_concat_iff]
    rintro (hnew | ⟨hawaits, -⟩)
    · exact absurd hnew htaken
    · exact h.taken hawaits
  · rw [awaits_concat_iff]
    rintro (⟨hnew | hnew, -⟩ | ⟨hawaits, -⟩)
    · exact absurd hnew harrived
    · exact absurd hnew htaken
    · exact h.signalled hawaits

theorem Serves.arrive {permit shutdown : Bool} {phase : Phase}
    (h : Serves events ⟨permit, shutdown, phase⟩) :
    Serves (events ++ [.arrived]) ⟨true, shutdown, phase⟩ where
  exited := by
    rw [exited_concat_iff, h.exited]
    exact nofun
  taken hawaits := by
    rcases (awaits_concat_iff _).mp hawaits with hnew | ⟨hawaits, -⟩
    · simp [Taken] at hnew
    · exact h.taken hawaits
  signalled hawaits := by
    rcases (awaits_concat_iff _).mp hawaits with ⟨-, hnew⟩ | ⟨hawaits, -⟩
    · rw [← not_exists, h.exited, Bool.not_eq_true] at hnew
      exact .inr ⟨rfl, hnew⟩
    · exact (h.signalled hawaits).imp_right fun hbuffer => ⟨rfl, hbuffer.2⟩

/-- The loop takes a signal, and owes it a render. -/
theorem Serves.take (h : Serves events s) {e : Event} (he : Taken e)
    (hexited : s'.phase.exited = s.phase.exited) (howes : s'.phase.owes = true) :
    Serves (events ++ [e]) s' where
  exited := by
    rw [exited_concat_iff, h.exited, hexited]
    rcases he with rfl | rfl <;> exact nofun
  taken _ := howes
  signalled _ := .inl howes

/-- A render serves everything before it. -/
theorem Serves.render (h : Serves events s) (hexited : s'.phase.exited = s.phase.exited) :
    Serves (events ++ [.renderStarted]) s' where
  exited := by
    rw [exited_concat_iff, hexited, h.exited]
    exact nofun
  taken hawaits := by simp [awaits_concat_iff, Taken] at hawaits
  signalled hawaits := by simp [awaits_concat_iff, Signalled, Taken] at hawaits

/-- The loop is left: what is owed or buffered requires the final render. -/
theorem Serves.leave (h : Serves events s) {drained : Bool} {decision : FinalRender}
    (hexit : s'.phase = .barrier decision)
    (hrequired : s.phase.owes = true ∨ s.permit = true → decision = .required) :
    Serves (events ++ [.exited drained]) s' where
  exited := by
    rw [hexit]
    exact iff_of_true ⟨drained, List.mem_concat_self⟩ rfl
  taken hawaits := by
    rcases (awaits_concat_iff _).mp hawaits with hnew | ⟨hawaits, -⟩
    · simp [Taken] at hnew
    · simpa [hexit, Phase.owes] using hrequired (.inl (h.taken hawaits))
  signalled hawaits := by
    rcases (awaits_concat_iff _).mp hawaits with ⟨hnew, -⟩ | ⟨hawaits, -⟩
    · simp [Taken] at hnew
    · have howed := hrequired ((h.signalled hawaits).imp_right And.left)
      simp [hexit, Phase.owes, howed]

theorem atBarrier_drain_eq_required_iff (permit : Bool) (state : PublisherState) :
    FinalRender.atBarrier state (.drain permit) = .required ↔
      state = .holdingDown true ∨ permit = true := by
  rcases state with _ | (_ | _) <;> cases permit <;> decide

theorem Serves.step (h : Serves events s) (hstep : Step s more s') :
    Serves (events ++ more) s' := by
  cases hstep with
  | stays => rwa [List.append_nil]
  | arrived => exact h.arrive
  | consumed => exact h.take (.inl rfl) rfl (by simp [Phase.owes])
  | ticked => exact h.take (.inr rfl) rfl (by simp [Phase.owes])
  | expired => exact (h.event (.inl rfl)).silent rfl (by simp [Phase.owes]) id
  | changed => exact (h.event (.inr rfl)).silent rfl (by simp [Phase.owes]) id
  | carried => exact h.leave rfl fun _ => rfl
  | exited hevent =>
    refine h.leave rfl fun howes => (atBarrier_drain_eq_required_iff _ _).mpr ?_
    simpa [Phase.owes, hevent] using howes
  | rendered | flushed => exact h.render rfl
  | sent | leading | coalesced | dirtied | heldDown | skipped | finished =>
    rw [List.append_nil]
    exact h.silent rfl (by simp [Phase.owes]) id
  | parked hclean =>
    rw [List.append_nil]
    exact h.silent rfl (by simp [Phase.owes, hclean]) id

/-! ## Renders are a hold-down apart -/

def PublisherState.spent : PublisherState → ℕ
  | idle => 0
  | holdingDown _ => 1

/-- How many renders may have started since the last expiry. -/
def Phase.spent : Phase → ℕ
  | selecting state => state.spent
  | selected state event => if event = .holdDownExpired then 0 else state.spent
  | authorised => 0
  | rendering | barrier _ => 1
  | flushing | done => 2

theorem PublisherState.spent_le (state : PublisherState) : state.spent ≤ 1 := by
  cases state with
  | idle => exact Nat.zero_le _
  | holdingDown dirty => exact le_rfl

theorem spent_selected_le (state : PublisherState) (event : LoopEvent) :
    (Phase.selected state event).spent ≤ 1 := by
  change (if event = .holdDownExpired then 0 else state.spent) ≤ 1
  split
  · exact Nat.zero_le _
  · exact state.spent_le

/-- A render starts in the loop only when none started since the last expiry. -/
structure Spaced (events : List Event) (s : PublisherLoop) : Prop where
  spent : (since .expired events).count .renderStarted ≤ s.phase.spent
  apart : Always (fun before e => e = .expired →
    (since .expired before).count .renderStarted ≤ 1) events

theorem spaced_start : Spaced [] .start := ⟨by simp, .nil⟩

theorem Spaced.silent (h : Spaced events s) (hspent : s.phase.spent ≤ s'.phase.spent) :
    Spaced events s' :=
  ⟨h.spent.trans hspent, h.apart⟩

/-- Any event but an expiry, and a render only where one may start. -/
theorem Spaced.event (h : Spaced events s) {e : Event} (he : e ≠ .expired)
    (hspent : s.phase.spent + (if e = .renderStarted then 1 else 0) ≤ s'.phase.spent) :
    Spaced (events ++ [e]) s' := by
  constructor
  · rw [since_concat_ne he, List.count_append, List.count_singleton]
    have hcount := h.spent
    simp only [beq_iff_eq] at hspent ⊢
    omega
  · rw [always_concat_iff]
    exact ⟨h.apart, fun hexpired => absurd hexpired he⟩

theorem Spaced.expire (h : Spaced events s) (hspent : s.phase.spent ≤ 1) :
    Spaced (events ++ [.expired]) s' := by
  constructor
  · rw [since_concat_self]
    exact Nat.zero_le _
  · rw [always_concat_iff]
    exact ⟨h.apart, fun _ => h.spent.trans hspent⟩

theorem Spaced.step (h : Spaced events s) (hstep : Step s more s') :
    Spaced (events ++ more) s' := by
  cases hstep with
  | stays => rwa [List.append_nil]
  | arrived => exact h.event nofun le_rfl
  | consumed | ticked | changed => exact h.event nofun le_rfl
  | expired => exact h.expire le_rfl
  | carried => exact h.event nofun (PublisherState.spent_le _)
  | exited => exact h.event nofun (spent_selected_le _ _)
  | rendered | flushed => exact h.event nofun le_rfl
  | sent | leading | coalesced | dirtied | heldDown | skipped | finished | parked =>
    rw [List.append_nil]
    exact h.silent (by simp [Phase.spent, PublisherState.spent])

/-! ## One render follows a shutdown -/

def Event.observesShutdown : Event → Bool
  | shutdownObserved | exited _ => true
  | arrived | consumed | ticked | expired | renderStarted => false

/-- A shutdown was observed, and the loop is left or leaves next. -/
def Phase.stopping : Phase → Bool
  | selected _ .shutdownObserved | barrier _ | flushing | done => true
  | selecting _ | selected _ .signal | selected _ .holdDownExpired | authorised | rendering => false

/-- How many renders may have started since. -/
def Phase.flushes : Phase → ℕ
  | flushing | done => 1
  | selecting _ | selected _ _ | authorised | rendering | barrier _ => 0

theorem Phase.flushes_le (phase : Phase) : phase.flushes ≤ 1 := by
  cases phase with
  | flushing | done => exact le_rfl
  | selecting | selected | authorised | rendering | barrier => exact Nat.zero_le _

structure Stops (events : List Event) (s : PublisherLoop) : Prop where
  stopping : (∃ e ∈ events, e.observesShutdown = true) → s.phase.stopping = true
  flushes : countFrom Event.observesShutdown .renderStarted events ≤ s.phase.flushes

theorem stops_start : Stops [] .start := by
  constructor
  · rintro ⟨e, he, -⟩
    cases he
  · exact Nat.zero_le _

theorem Stops.silent (h : Stops events s)
    (hstopping : s.phase.stopping = true → s'.phase.stopping = true)
    (hflushes : s.phase.flushes ≤ s'.phase.flushes) : Stops events s' :=
  ⟨fun hobserved => hstopping (h.stopping hobserved), h.flushes.trans hflushes⟩

theorem Stops.event (h : Stops events s) {e : Event}
    (hstopping : s.phase.stopping = true ∨ e.observesShutdown = true → s'.phase.stopping = true)
    (hflushes : s.phase.flushes +
      (if s.phase.stopping = true ∧ e = .renderStarted then 1 else 0) ≤ s'.phase.flushes) :
    Stops (events ++ [e]) s' := by
  constructor
  · rintro ⟨e', he', hobserves⟩
    rcases List.mem_append.mp he' with hbefore | hnew
    · exact hstopping (.inl (h.stopping ⟨e', hbefore, hobserves⟩))
    · rw [List.mem_singleton.mp hnew] at hobserves
      exact hstopping (.inr hobserves)
  · rw [countFrom_concat e rfl]
    have hcount := h.flushes
    have hle : (if (∃ y ∈ events, y.observesShutdown = true) ∧ e = .renderStarted then 1 else 0) ≤
        if s.phase.stopping = true ∧ e = .renderStarted then 1 else 0 := by
      split
      · next hboth => rw [if_pos ⟨h.stopping hboth.1, hboth.2⟩]
      · exact Nat.zero_le _
    omega

theorem Stops.step (h : Stops events s) (hstep : Step s more s') : Stops (events ++ more) s' := by
  cases hstep with
  | stays => rwa [List.append_nil]
  | arrived => exact h.event (by simp [Event.observesShutdown]) (by simp)
  | consumed | ticked | changed | expired | carried | exited | rendered | flushed =>
    exact h.event (by simp [Event.observesShutdown, Phase.stopping])
      (by simp [Phase.flushes, Phase.stopping])
  | sent | leading | coalesced | dirtied | heldDown | skipped | finished | parked =>
    rw [List.append_nil]
    exact h.silent (by simp [Phase.stopping]) (by simp [Phase.flushes])

/-! ## Every render has a signal of its own -/

/-- What a signal is taken by: the select, or the exit with the buffer. -/
def Serving (e : Event) : Prop := e = .consumed ∨ e = .ticked ∨ e = .exited true

/-- The buffer after an event. -/
def bufferAfter (permit : Bool) : Event → Bool
  | .arrived => true
  | .consumed | .exited true => false
  | .ticked | .expired | .shutdownObserved | .exited false | .renderStarted => permit

/-- Whether a history leaves a signal in the buffer. -/
def buffered (events : List Event) : Bool := events.foldl bufferAfter false

@[simp] theorem buffered_concat (e : Event) :
    buffered (events ++ [e]) = bufferAfter (buffered events) e := by
  rw [buffered, List.foldl_append]
  rfl

/-- What is owed a render is a signal that was taken since the last one started. -/
structure Justified (events : List Event) (s : PublisherLoop) : Prop where
  buffer : buffered events = s.permit
  owed : s.phase.owes = true → ∃ e ∈ since .renderStarted events, Serving e
  takes : Always (fun before e => e = .consumed ∨ e = .exited true → buffered before = true) events
  renders : Always (fun before e => e = .renderStarted →
    ∃ e' ∈ since .renderStarted before, Serving e') events

theorem justified_start : Justified [] .start where
  buffer := rfl
  owed := by simp [PublisherLoop.start, Phase.owes]
  takes := .nil
  renders := .nil

theorem Justified.silent (h : Justified events s) (hpermit : s'.permit = s.permit)
    (howes : s'.phase.owes = true → s.phase.owes = true) : Justified events s' :=
  ⟨h.buffer.trans hpermit.symm, fun howed => h.owed (howes howed), h.takes, h.renders⟩

/-- Any event but a render. -/
theorem Justified.event (h : Justified events s) {e : Event} (he : e ≠ .renderStarted)
    (hpermit : s'.permit = bufferAfter s.permit e)
    (htakes : e = .consumed ∨ e = .exited true → s.permit = true)
    (howes : s'.phase.owes = true → s.phase.owes = true ∨ Serving e) :
    Justified (events ++ [e]) s' where
  buffer := by rw [buffered_concat, h.buffer, hpermit]
  owed howed := by
    rw [since_concat_ne he]
    rcases howes howed with hbefore | hserving
    · obtain ⟨e', he', hserving⟩ := h.owed hbefore
      exact ⟨e', List.mem_append_left _ he', hserving⟩
    · exact ⟨e, List.mem_concat_self, hserving⟩
  takes := (always_concat_iff e).mpr ⟨h.takes, fun htaken => h.buffer.trans (htakes htaken)⟩
  renders := (always_concat_iff e).mpr ⟨h.renders, fun hrender => absurd hrender he⟩

theorem Justified.render (h : Justified events s) (hpermit : s'.permit = s.permit)
    (howed : s.phase.owes = true) (howes : s'.phase.owes = false) :
    Justified (events ++ [.renderStarted]) s' where
  buffer := by rw [buffered_concat, h.buffer, hpermit, bufferAfter]
  owed howed' := by rw [howes] at howed'; cases howed'
  takes := (always_concat_iff _).mpr ⟨h.takes, nofun⟩
  renders := (always_concat_iff _).mpr ⟨h.renders, fun _ => h.owed howed⟩

theorem Justified.step (h : Justified events s) (hstep : Step s more s') :
    Justified (events ++ more) s' := by
  cases hstep with
  | stays => rwa [List.append_nil]
  | arrived => exact h.event nofun rfl nofun .inl
  | consumed => exact h.event nofun rfl (fun _ => rfl) fun _ => .inr (.inl rfl)
  | ticked => exact h.event nofun rfl nofun fun _ => .inr (.inr (.inl rfl))
  | changed | expired =>
    exact h.event nofun rfl nofun fun howes => .inl (by simpa [Phase.owes] using howes)
  | carried => exact h.event nofun rfl nofun (by simp [Phase.owes])
  | @exited permit shutdown state event hevent =>
    refine h.event nofun ?_ (by simp) fun howes => ?_
    · cases permit <;> rfl
    · rcases (atBarrier_drain_eq_required_iff _ _).mp (of_decide_eq_true howes) with hdirty | rfl
      · exact .inl (by simp [Phase.owes, hdirty])
      · exact .inr (.inr (.inr rfl))
  | rendered | flushed => exact h.render rfl rfl rfl
  | sent | leading | coalesced | dirtied | heldDown | skipped | finished | parked =>
    rw [List.append_nil]
    exact h.silent rfl (by simp [Phase.owes])

/-! ## Runs -/

/-- A signal arrives on its own, or with the tick that takes it. -/
def Arrives (e : Event) : Prop := e = .arrived ∨ e = .ticked

/-- Without an arrival the buffer stays empty. -/
theorem buffered_append_eq_false {before between : List Event} (hbefore : buffered before = false)
    (hbetween : ∀ e ∈ between, ¬ Arrives e) : buffered (before ++ between) = false := by
  induction between using List.reverseRecOn with
  | nil => rwa [List.append_nil]
  | append_singleton between e ih =>
    have hempty := ih fun e' he' => hbetween e' (List.mem_append_left _ he')
    have he := hbetween e List.mem_concat_self
    rw [← List.append_assoc, buffered_concat, hempty]
    rcases e with _ | _ | _ | _ | _ | (_ | _) | _
    case arrived => exact absurd (.inl rfl) he
    all_goals rfl

/-- Between two renders a signal arrives, or one was waiting when the first of them started. -/
theorem arrives_between {before between later : List Event}
    (h : Justified (before ++ .renderStarted :: (between ++ .renderStarted :: later)) s)
    (hbetween : .renderStarted ∉ between) :
    (∃ e ∈ between, Arrives e) ∨ buffered before = true := by
  obtain ⟨-, -, htakes, hrenders⟩ := h
  rw [← List.cons_append, ← List.append_assoc] at hrenders
  obtain ⟨e, he, hserving⟩ := hrenders.split rfl
  rw [since_split hbetween] at he
  by_contra hnone
  rw [not_or, not_exists, Bool.not_eq_true] at hnone
  obtain ⟨hnone, hempty⟩ := hnone
  have hquiet : ∀ e ∈ between, ¬ Arrives e := fun e he harrives => hnone e ⟨he, harrives⟩
  obtain ⟨first, rest, rfl⟩ := List.append_of_mem he
  have hbuffer : e = .consumed ∨ e = .exited true → False := by
    intro htaken
    have hsplit : before ++ .renderStarted :: ((first ++ e :: rest) ++ .renderStarted :: later) =
        ((before ++ [.renderStarted]) ++ first) ++ e :: (rest ++ .renderStarted :: later) := by
      simp
    rw [hsplit] at htakes
    have hfirst : buffered ((before ++ [.renderStarted]) ++ first) = false := by
      apply buffered_append_eq_false
      · rw [buffered_concat, hempty, bufferAfter]
      · exact fun e he => hquiet e (List.mem_append_left _ he)
    exact absurd (htakes.split htaken) (by rw [hfirst]; exact Bool.false_ne_true)
  rcases hserving with rfl | rfl | rfl
  · exact hbuffer (.inl rfl)
  · exact hquiet _ he (.inr rfl)
  · exact hbuffer (.inr rfl)

/--
The publisher joins signals and drops none. Over every run: when it is done, each signal that
arrived or was taken before the loop was left is followed by a render that started after it; at the
select, so is each signal that was taken, unless the hold-down is dirty. Between two expiries one
render starts at most, and after an observation of the shutdown one more. Between two renders a
signal arrives, or one was waiting in the buffer when the first of them started.
-/
theorem publisher_coalesces (interval : Bool) (moves : List Move) :
    let history := (machine interval).history .start moves
    let phase := ((machine interval).after .start moves).phase
    (phase = .done → ∀ before e later, history = before ++ e :: later → Signalled before e →
      .renderStarted ∈ later) ∧
    (∀ state, phase = .selecting state → ∀ before e later, history = before ++ e :: later →
      Taken e → .renderStarted ∈ later ∨ state = .holdingDown true) ∧
    (∀ before between later, history = before ++ .expired :: (between ++ .expired :: later) →
      .expired ∉ between → between.count .renderStarted ≤ 1) ∧
    (∀ before e later, history = before ++ e :: later → e.observesShutdown = true →
      later.count .renderStarted ≤ 1) ∧
    ∀ before between later,
      history = before ++ .renderStarted :: (between ++ .renderStarted :: later) →
      .renderStarted ∉ between → (∃ e ∈ between, Arrives e) ∨ buffered before = true := by
  intro history phase
  have hserves := invariant_history Serves.step serves_start interval moves
  have hspaced := invariant_history Spaced.step spaced_start interval moves
  have hstops := invariant_history Stops.step stops_start interval moves
  have hjustified := invariant_history Justified.step justified_start interval moves
  refine ⟨fun hdone before e later h hsignal => ?_, fun state hstate before e later h htaken => ?_,
    fun before between later h hbetween => ?_, fun before e later h hobserves => ?_,
    fun before between later h hbetween => ?_⟩
  · have hserved : ¬ Awaits Signalled .renderStarted history := by
      intro hawaits
      have howed := hserves.signalled hawaits
      change phase.owes = true ∨ _ ∧ phase.exited = false at howed
      rw [hdone] at howed
      simp [Phase.owes, Phase.exited] at howed
    rw [h] at hserved
    exact answered_of_not_awaits hserved hsignal
  · by_cases hdirty : state = .holdingDown true
    · exact .inr hdirty
    · have hserved : ¬ Awaits (fun _ => Taken) .renderStarted history := by
        intro hawaits
        have howed := hserves.taken hawaits
        change phase.owes = true at howed
        rw [hstate] at howed
        exact hdirty (of_decide_eq_true howed)
      rw [h] at hserved
      exact .inl (answered_of_not_awaits hserved htaken)
  · have hapart := hspaced.apart
    change Always _ history at hapart
    rw [h, ← List.cons_append, ← List.append_assoc] at hapart
    have hcount := hapart.split rfl
    rwa [since_split hbetween] at hcount
  · have hflushes := hstops.flushes
    change countFrom _ _ history ≤ phase.flushes at hflushes
    rw [h] at hflushes
    exact (count_le_countFrom hobserves _ _ _).trans (hflushes.trans phase.flushes_le)
  · change Justified history _ at hjustified
    rw [h] at hjustified
    exact arrives_between hjustified hbetween

/-- A signal that arrives with an expiry, and is taken after the render of the expiry. -/
def sampleMoves : List Move :=
  [.notify, .select .notified, .decide, .start, .complete, .notify, .select .notified, .decide,
    .notify, .select .holdDown, .decide, .start, .complete, .select .notified, .decide,
    .select .holdDown, .decide, .start]

/-- The third render of the sample starts although no signal arrived since the second. -/
theorem render_without_arrival :
    (machine true).history .start sampleMoves =
      [.arrived, .consumed, .renderStarted, .arrived, .consumed, .arrived, .expired] ++
        .renderStarted :: ([.consumed, .expired] ++ .renderStarted :: []) ∧
    .renderStarted ∉ [Event.consumed, .expired] ∧
    ¬ ∃ e ∈ [Event.consumed, .expired], Arrives e := by
  refine ⟨by decide, by decide, ?_⟩
  simp [Arrives]

end GhReport.Collect.PartialPublisher
