import GhReport.Library.History
import Mathlib.Algebra.Group.Nat.Defs
import Mathlib.Algebra.GroupWithZero.Nat

/-! # The collection loop

One run at the start and one each tick. A run that meets the fence of another
writer is re-armed: the stores are read again before it is run again, a few times
at most. The wait for the next tick grows with the ticks that were missed in a row.
-/

namespace GhReport.App

/-! ## Waits -/

def collectionIntervalSecs : ℕ := 3600

def collectionRetryIntervalSecs : ℕ := 60

/-- The largest value of a `u32`, where the count of retries saturates. -/
def maxRetries : ℕ := 2 ^ 32 - 1

/-- The factor of the back-off is shifted in a `u64`, and saturates with the product. -/
def collectionInterval (consecutiveRetries : ℕ) : ℕ :=
  if consecutiveRetries = 0 then collectionIntervalSecs
  else
    let shift := consecutiveRetries - 1
    let factor := if shift < 64 then 2 ^ shift else 2 ^ 64 - 1
    min (min (collectionRetryIntervalSecs * factor) (2 ^ 64 - 1)) collectionIntervalSecs

/-! ## The loop -/

inductive CollectionOutcome where
  | completed (unscanned : ℕ)
  | cancelled
  | fencedConflict

structure RearmPolicy where
  maxAttempts : ℕ
  backoffBase : ℕ

def RearmPolicy.default : RearmPolicy := ⟨3, 2⟩

/-- What the loop is configured with; `nats` is whether the store's configuration is valid. -/
structure LoopConfig where
  forceUnlock : Bool
  forceRefresh : Bool
  nats : Bool
  policy : RearmPolicy

/-- What the loop awaits; a re-arm counts its attempts from one. -/
inductive LoopStage where
  | spawned
  | run
  | resync (attempt : ℕ)
  | rerun (attempt : ℕ)
  | backoff (attempt seconds : ℕ)
  | wait (seconds : ℕ)
  | stopped

/-- The loop, its one-shot flags, and what the other tasks tell it. -/
structure CollectionLoop where
  stage : LoopStage
  initial : Bool
  consecutiveRetries : ℕ
  forceFlag : Bool
  forceRefreshFlag : Bool
  cancelled : Bool
  admitted : Bool

/-- What happens to the loop; an error of a run is logged and counted, whichever it is. -/
inductive LoopInput where
  | spawn
  | cancel
  | closeAdmission
  | runEnded (result : Except String CollectionOutcome)
  | resyncEnded (result : Except String Unit)
  | elapsed

inductive TickEnd where
  | clean | missed | aborted
deriving DecidableEq

inductive LoopEvent where
  | runStarted (forceUnlock forceRefresh : Bool)
  | resynced (succeeded : Bool)
  | slept (seconds : ℕ)
  | tickEnded (result : TickEnd)
  | waits (seconds : ℕ)
  | tick
  | shutdown
  | closed
deriving DecidableEq

namespace CollectionLoop

def new (config : LoopConfig) : CollectionLoop :=
  ⟨.spawned, true, 0, config.forceUnlock, config.forceRefresh, false, true⟩

variable (config : LoopConfig) (s : CollectionLoop)

/-- A run is started; in the initial tick it takes the one-shot flags. -/
def startRun (stage : LoopStage) : List LoopEvent × CollectionLoop :=
  ([.runStarted s.forceFlag s.forceRefreshFlag],
    if s.initial then { s with stage := stage, forceFlag := false, forceRefreshFlag := false }
    else { s with stage := stage })

/-- The top of the loop. -/
def nextTick : List LoopEvent × CollectionLoop :=
  if s.cancelled || !s.admitted then ([], { s with stage := .stopped, initial := false })
  else
    ([.waits (collectionInterval s.consecutiveRetries)],
      { s with stage := .wait (collectionInterval s.consecutiveRetries), initial := false })

def endTick (result : TickEnd) (retries : ℕ) : List LoopEvent × CollectionLoop :=
  let next := { s with consecutiveRetries := retries }.nextTick
  (.tickEnded result :: next.1, next.2)

def missTick : List LoopEvent × CollectionLoop :=
  s.endTick .missed (if s.initial then 1 else min (s.consecutiveRetries + 1) maxRetries)

def completeTick (unscanned : ℕ) : List LoopEvent × CollectionLoop :=
  if unscanned = 0 then s.endTick .clean 0 else s.missTick

/-- An attempt of the re-arm begins with a read of the stores. -/
def attempt (n : ℕ) : List LoopEvent × CollectionLoop :=
  if n ≤ config.policy.maxAttempts then ([], { s with stage := .resync n }) else s.missTick

def attemptFailed (n : ℕ) : List LoopEvent × CollectionLoop :=
  if n = config.policy.maxAttempts then s.missTick
  else
    ([.slept (config.policy.backoffBase * n)],
      { s with stage := .backoff n (config.policy.backoffBase * n) })

def runEnded : Except String CollectionOutcome → List LoopEvent × CollectionLoop
  | .ok (.completed unscanned) => s.completeTick unscanned
  | .ok .cancelled => s.endTick .aborted s.consecutiveRetries
  | .ok .fencedConflict => if config.nats then s.attempt config 1 else s.missTick
  | .error _ => s.missTick

/-- The end of a run of the re-arm: one that was aborted counts as missed. -/
def rerunEnded (n : ℕ) : Except String CollectionOutcome → List LoopEvent × CollectionLoop
  | .ok (.completed unscanned) => s.completeTick unscanned
  | .ok .cancelled => s.missTick
  | .ok .fencedConflict | .error _ => s.attemptFailed config n

def resyncEnded (n : ℕ) : Except String Unit → List LoopEvent × CollectionLoop
  | .ok () => (.resynced true :: (s.startRun (.rerun n)).1, (s.startRun (.rerun n)).2)
  | .error _ => (.resynced false :: (s.attemptFailed config n).1, (s.attemptFailed config n).2)

/-- The wait is over: admission may have been closed meanwhile. -/
def startTick : List LoopEvent × CollectionLoop :=
  if s.admitted then (.tick :: (s.startRun .run).1, (s.startRun .run).2)
  else ([], { s with stage := .stopped })

/-- A signal ends the wait at once, and leaves anything else to its end. -/
def cancel : CollectionLoop :=
  match s.stage with
  | .wait _ => { s with cancelled := true, stage := .stopped }
  | _ => { s with cancelled := true }

end CollectionLoop

def collectionLoop (config : LoopConfig) :
    Machine CollectionLoop LoopInput (List LoopEvent) where
  step s input :=
    match input, s.stage with
    | .cancel, _ => ([.shutdown], s.cancel)
    | .closeAdmission, _ => ([.closed], { s with admitted := false })
    | .spawn, .spawned => s.startRun .run
    | .runEnded result, .run => s.runEnded config result
    | .runEnded result, .rerun n => s.rerunEnded config n result
    | .resyncEnded result, .resync n => s.resyncEnded config n result
    | .elapsed, .backoff n _ => s.attempt config (n + 1)
    | .elapsed, .wait _ => s.startTick
    | _, _ => ([], s)

/-! ## What the history says -/

/-- The ticks that were missed since the last that was clean. -/
def misses (events : List LoopEvent) : ℕ :=
  events.foldl (fun n e => match e with
    | .tickEnded .clean => 0
    | .tickEnded .missed => n + 1
    | _ => n) 0

/-- The back-off: it doubles from a minute up to an hour, and is an hour after a clean tick. -/
def backoffSeconds (missed : ℕ) : ℕ := if missed = 0 then 3600 else min (60 * 2 ^ (missed - 1)) 3600

def LoopEvent.isRun : LoopEvent → Bool
  | runStarted .. => true
  | _ => false

def LoopEvent.isResync : LoopEvent → Bool
  | resynced _ => true
  | _ => false

/-- The runs of the present tick, and the times that the stores were read again in it. -/
def runsInTick (events : List LoopEvent) : ℕ := (History.since .tick events).countP LoopEvent.isRun

def resyncsInTick (events : List LoopEvent) : ℕ :=
  (History.since .tick events).countP LoopEvent.isResync

/--
The force flags reach the first run alone. A tick has one run, and at most as many more as the
policy has attempts, each right after the stores were read again. No tick begins once the
daemon shuts down or admission is closed.
-/
def Allowed (config : LoopConfig) (before : List LoopEvent) : LoopEvent → Prop
  | .runStarted forceUnlock forceRefresh =>
    forceUnlock = (config.forceUnlock && !before.any LoopEvent.isRun) ∧
      forceRefresh = (config.forceRefresh && !before.any LoopEvent.isRun) ∧
      runsInTick before ≤ config.policy.maxAttempts ∧
      (runsInTick before = 0 ∨ before.getLast? = some (.resynced true))
  | .slept seconds => seconds = config.policy.backoffBase * resyncsInTick before
  | .waits seconds => seconds = backoffSeconds (misses before)
  | .tick => .shutdown ∉ before ∧ .closed ∉ before
  | _ => True

/-! ## Readings of a history that grows -/

section Concat

variable (events : List LoopEvent) (e : LoopEvent)

theorem misses_concat :
    misses (events ++ [e]) = match e with
      | .tickEnded .clean => 0
      | .tickEnded .missed => misses events + 1
      | _ => misses events := by
  rw [misses, List.foldl_concat]
  rfl

theorem runsInTick_tick : runsInTick (events ++ [.tick]) = 0 := by
  rw [runsInTick, History.since_concat_self, List.countP_nil]

theorem resyncsInTick_tick : resyncsInTick (events ++ [.tick]) = 0 := by
  rw [resyncsInTick, History.since_concat_self, List.countP_nil]

variable {e}

theorem runsInTick_concat (h : e ≠ .tick) :
    runsInTick (events ++ [e]) = runsInTick events + e.isRun.toNat := by
  rw [runsInTick, History.since_concat_ne h, List.countP_append, List.countP_singleton, runsInTick]
  cases e.isRun <;> rfl

theorem resyncsInTick_concat (h : e ≠ .tick) :
    resyncsInTick (events ++ [e]) = resyncsInTick events + e.isResync.toNat := by
  rw [resyncsInTick, History.since_concat_ne h, List.countP_append, List.countP_singleton,
    resyncsInTick]
  cases e.isResync <;> rfl

end Concat

theorem collectionInterval_eq (n : ℕ) : collectionInterval n = backoffSeconds n := by
  have hlarge : ∀ n, 6 ≤ n → 3600 ≤ 60 * 2 ^ n := by
    intro n hn
    have hpow : 2 ^ 6 ≤ 2 ^ n := Nat.pow_le_pow_right (by decide) hn
    omega
  unfold collectionInterval backoffSeconds collectionIntervalSecs collectionRetryIntervalSecs
  split
  · rfl
  · rcases Nat.lt_or_ge (n - 1) 6 with hs | hs
    · -- the product is below an hour, and nothing saturates
      have hpow : 2 ^ (n - 1) ≤ 2 ^ 5 := Nat.pow_le_pow_right (by decide) (by omega)
      simp only [if_pos (show n - 1 < 64 by omega)]
      omega
    · -- the product is an hour or more, also where the shift saturates
      have hn := hlarge (n - 1) hs
      dsimp only
      split <;> omega

/-- Nor does it matter that the count saturates. -/
theorem backoffSeconds_min (missed : ℕ) :
    backoffSeconds (min missed maxRetries) = backoffSeconds missed := by
  rcases Nat.le_total missed maxRetries with h | h
  · rw [Nat.min_eq_left h]
  · have hlarge : ∀ n, maxRetries ≤ n → backoffSeconds n = 3600 := by
      intro n hn
      have hn : 7 ≤ n := le_trans (by decide) hn
      have hpow : 2 ^ 6 ≤ 2 ^ (n - 1) := Nat.pow_le_pow_right (by decide) (by omega)
      unfold backoffSeconds
      rw [if_neg (by omega)]
      omega
    rw [Nat.min_eq_right h, hlarge _ le_rfl, hlarge _ h]

/-! ## The invariant -/

/-- What the loop keeps of its history in every stage. -/
structure CollectionLoop.Recorded (config : LoopConfig) (before : List LoopEvent)
    (s : CollectionLoop) : Prop where
  allowed : History.Always (Allowed config) before
  shutdown : s.cancelled = true ↔ .shutdown ∈ before
  closed : s.admitted = false ↔ .closed ∈ before
  retries : s.consecutiveRetries = min (misses before) maxRetries
  forceFlag : s.forceFlag = (config.forceUnlock && !before.any LoopEvent.isRun)
  forceRefreshFlag : s.forceRefreshFlag = (config.forceRefresh && !before.any LoopEvent.isRun)

/-- What a stage says of the present tick. -/
def LoopStage.Records (config : LoopConfig) (before : List LoopEvent) : LoopStage → Prop
  | spawned => runsInTick before = 0 ∧ resyncsInTick before = 0
  | run => runsInTick before = 1 ∧ resyncsInTick before = 0
  | resync n => n ≤ config.policy.maxAttempts ∧ resyncsInTick before + 1 = n ∧ runsInTick before ≤ n
  | rerun n => n ≤ config.policy.maxAttempts ∧ resyncsInTick before = n ∧ runsInTick before ≤ n + 1
  | backoff n _ =>
    n < config.policy.maxAttempts ∧ resyncsInTick before = n ∧ runsInTick before ≤ n + 1
  | wait _ => .shutdown ∉ before
  | stopped => True

structure CollectionLoop.Faithful (config : LoopConfig) (before : List LoopEvent)
    (s : CollectionLoop) : Prop extends s.Recorded config before where
  stage : s.stage.Records config before
  initial : s.initial = true → misses before = 0
  spawned : s.stage = .spawned → s.initial = true
  started : s.stage ≠ .spawned → before.any LoopEvent.isRun = true

/-- The same of a loop that has started its first run, whatever its stage. -/
structure CollectionLoop.Running (config : LoopConfig) (before : List LoopEvent)
    (s : CollectionLoop) : Prop extends s.Recorded config before where
  initial : s.initial = true → misses before = 0
  started : before.any LoopEvent.isRun = true

namespace CollectionLoop

variable {config : LoopConfig} {before : List LoopEvent} {s : CollectionLoop}

/-- An event that is none of the runs, the ticks or the signals is recorded as it comes. -/
theorem Recorded.concat {e : LoopEvent} (h : s.Recorded config before)
    (ha : Allowed config before e) (hr : e.isRun = false) (hs : e ≠ .shutdown) (hc : e ≠ .closed)
    (hm : misses (before ++ [e]) = misses before) : s.Recorded config (before ++ [e]) where
  allowed := (History.always_concat_iff e).mpr ⟨h.allowed, ha⟩
  shutdown := by simp [h.shutdown, hs.symm]
  closed := by simp [h.closed, hc.symm]
  retries := by rw [hm, h.retries]
  forceFlag := by simp [h.forceFlag, hr]
  forceRefreshFlag := by simp [h.forceRefreshFlag, hr]

theorem Recorded.move (h : s.Recorded config before) (stage : LoopStage) (initial : Bool) :
    ({ s with stage := stage, initial := initial } : CollectionLoop).Recorded config before :=
  ⟨h.allowed, h.shutdown, h.closed, h.retries, h.forceFlag, h.forceRefreshFlag⟩

/-- The loop waits as long as the missed ticks say, or is stopped. -/
theorem Recorded.nextTick (h : s.Recorded config before)
    (hs : before.any LoopEvent.isRun = true) :
    s.nextTick.2.Faithful config (before ++ s.nextTick.1) := by
  unfold CollectionLoop.nextTick
  split
  · rw [List.append_nil]
    refine ⟨h.move _ _, trivial, ?_, ?_, fun _ => hs⟩
    · rintro ⟨⟩
    · rintro ⟨⟩
  · rename_i hopen
    have hc : .shutdown ∉ before := fun hm => hopen (by simp [h.shutdown.mpr hm])
    have hw : Allowed config before (.waits (collectionInterval s.consecutiveRetries)) := by
      rw [h.retries, collectionInterval_eq, backoffSeconds_min]
      rfl
    refine ⟨(h.concat hw rfl (by simp) (by simp) (misses_concat ..)).move _ _, ?_, ?_, ?_, ?_⟩
    · simpa [LoopStage.Records] using hc
    · rintro ⟨⟩
    · rintro ⟨⟩
    · exact fun _ => by simp [hs]

theorem Recorded.endTick (h : s.Recorded config before)
    (hs : before.any LoopEvent.isRun = true) {result : TickEnd} {retries : ℕ}
    (hr : retries = min (misses (before ++ [.tickEnded result])) maxRetries) :
    (s.endTick result retries).2.Faithful config (before ++ (s.endTick result retries).1) := by
  unfold CollectionLoop.endTick
  have hrecorded : ({ s with consecutiveRetries := retries } : CollectionLoop).Recorded config
      (before ++ [.tickEnded result]) :=
    { allowed := (History.always_concat_iff _).mpr ⟨h.allowed, trivial⟩
      shutdown := by simp [h.shutdown]
      closed := by simp [h.closed]
      retries := hr
      forceFlag := by simp [h.forceFlag, LoopEvent.isRun]
      forceRefreshFlag := by simp [h.forceRefreshFlag, LoopEvent.isRun] }
  have hnext := hrecorded.nextTick (by simp [hs])
  rwa [List.append_assoc] at hnext

theorem Running.concat {e : LoopEvent} (h : s.Running config before)
    (ha : Allowed config before e) (hr : e.isRun = false) (hs : e ≠ .shutdown) (hc : e ≠ .closed)
    (hm : misses (before ++ [e]) = misses before) : s.Running config (before ++ [e]) :=
  ⟨h.toRecorded.concat ha hr hs hc hm, hm ▸ h.initial, by simp [h.started]⟩

theorem Running.missTick (h : s.Running config before) :
    s.missTick.2.Faithful config (before ++ s.missTick.1) := by
  refine h.toRecorded.endTick h.started ?_
  rw [misses_concat]
  split
  · rename_i hi
    rw [h.initial hi]
    rfl
  · rw [h.retries]
    simp only [maxRetries]
    omega

theorem Running.completeTick (h : s.Running config before) (unscanned : ℕ) :
    (s.completeTick unscanned).2.Faithful config (before ++ (s.completeTick unscanned).1) := by
  unfold CollectionLoop.completeTick
  split
  · refine h.toRecorded.endTick h.started ?_
    rw [misses_concat]
    rfl
  · exact h.missTick

/-- The stage moves on. -/
theorem Running.moveTo (h : s.Running config before) {stage : LoopStage}
    (hn : stage ≠ .spawned) (hst : stage.Records config before) :
    ({ s with stage := stage } : CollectionLoop).Faithful config before :=
  ⟨h.toRecorded.move stage s.initial, hst, h.initial, fun hs => absurd hs hn, fun _ => h.started⟩

theorem Running.attempt (h : s.Running config before) {n : ℕ}
    (hn : resyncsInTick before + 1 = n) (hr : runsInTick before ≤ n) :
    (s.attempt config n).2.Faithful config (before ++ (s.attempt config n).1) := by
  unfold CollectionLoop.attempt
  split
  · rename_i hle
    rw [List.append_nil]
    exact h.moveTo (by simp) ⟨hle, hn, hr⟩
  · exact h.missTick

theorem Running.attemptFailed (h : s.Running config before) {n : ℕ}
    (hle : n ≤ config.policy.maxAttempts) (hn : resyncsInTick before = n)
    (hr : runsInTick before ≤ n + 1) :
    (s.attemptFailed config n).2.Faithful config (before ++ (s.attemptFailed config n).1) := by
  unfold CollectionLoop.attemptFailed
  split
  · exact h.missTick
  · rename_i hne
    have hslept := h.concat (e := .slept (config.policy.backoffBase * n))
      (congrArg (config.policy.backoffBase * ·) hn.symm) rfl (by simp) (by simp) (misses_concat ..)
    refine hslept.moveTo (by simp) ⟨by omega, ?_, ?_⟩
    · rw [resyncsInTick_concat _ (by simp), hn]
      rfl
    · rw [runsInTick_concat _ (by simp)]
      exact hr

theorem Running.runEnded (h : s.Running config before) (hr : runsInTick before = 1)
    (hn : resyncsInTick before = 0) (result : Except String CollectionOutcome) :
    (s.runEnded config result).2.Faithful config (before ++ (s.runEnded config result).1) := by
  unfold CollectionLoop.runEnded
  split
  · exact h.completeTick _
  · refine h.toRecorded.endTick h.started ?_
    rw [misses_concat]
    exact h.retries
  · split
    · exact h.attempt (by rw [hn]) hr.le
    · exact h.missTick
  · exact h.missTick

theorem Running.rerunEnded (h : s.Running config before) {n : ℕ}
    (hle : n ≤ config.policy.maxAttempts) (hn : resyncsInTick before = n)
    (hr : runsInTick before ≤ n + 1) (result : Except String CollectionOutcome) :
    (s.rerunEnded config n result).2.Faithful config
      (before ++ (s.rerunEnded config n result).1) := by
  unfold CollectionLoop.rerunEnded
  split
  · exact h.completeTick _
  · exact h.missTick
  · exact h.attemptFailed hle hn hr
  · exact h.attemptFailed hle hn hr

/-- A run is started with the flags as they are, which are off after the first. -/
theorem Recorded.startRun (h : s.Recorded config before)
    (hi : s.initial = true → misses before = 0)
    (hs : s.initial = false → before.any LoopEvent.isRun = true)
    (hr : runsInTick before ≤ config.policy.maxAttempts)
    (hlast : runsInTick before = 0 ∨ before.getLast? = some (.resynced true))
    (stage : LoopStage) (hn : stage ≠ .spawned)
    (hst : stage.Records config (before ++ [.runStarted s.forceFlag s.forceRefreshFlag])) :
    (s.startRun stage).2.Faithful config (before ++ (s.startRun stage).1) := by
  have hany : (before ++ [LoopEvent.runStarted s.forceFlag s.forceRefreshFlag]).any
      LoopEvent.isRun = true := by simp [LoopEvent.isRun]
  have hallowed := (History.always_concat_iff
    (LoopEvent.runStarted s.forceFlag s.forceRefreshFlag)).mpr
      ⟨h.allowed, h.forceFlag, h.forceRefreshFlag, hr, hlast⟩
  unfold CollectionLoop.startRun
  split
  · rename_i hinitial
    exact
      { allowed := hallowed
        shutdown := by simp [h.shutdown]
        closed := by simp [h.closed]
        retries := by rw [misses_concat]; exact h.retries
        forceFlag := by simp [hany]
        forceRefreshFlag := by simp [hany]
        stage := hst
        initial := by rw [misses_concat]; exact hi
        spawned := fun h => absurd h hn
        started := fun _ => hany }
  · rename_i hinitial
    have hoff := hs (Bool.not_eq_true _ ▸ hinitial)
    exact
      { allowed := hallowed
        shutdown := by simp [h.shutdown]
        closed := by simp [h.closed]
        retries := by rw [misses_concat]; exact h.retries
        forceFlag := by simp [h.forceFlag, hoff]
        forceRefreshFlag := by simp [h.forceRefreshFlag, hoff]
        stage := hst
        initial := by rw [misses_concat]; exact hi
        spawned := fun h => absurd h hn
        started := fun _ => hany }

theorem Running.resyncEnded (h : s.Running config before) {n : ℕ}
    (hle : n ≤ config.policy.maxAttempts) (hn : resyncsInTick before + 1 = n)
    (hr : runsInTick before ≤ n) (result : Except String Unit) :
    (s.resyncEnded config n result).2.Faithful config
      (before ++ (s.resyncEnded config n result).1) := by
  have hresync : ∀ ok, s.Running config (before ++ [.resynced ok]) ∧
      resyncsInTick (before ++ [.resynced ok]) = n ∧ runsInTick (before ++ [.resynced ok]) ≤ n := by
    intro ok
    refine ⟨h.concat trivial rfl (by simp) (by simp) (misses_concat ..), ?_, ?_⟩
    · rw [resyncsInTick_concat _ (by simp)]
      exact hn
    · rw [runsInTick_concat _ (by simp)]
      exact hr
  unfold CollectionLoop.resyncEnded
  split
  · obtain ⟨hrun, hn', hr'⟩ := hresync true
    have hstart := hrun.toRecorded.startRun hrun.initial (fun _ => hrun.started) (hr'.trans hle)
      (.inr (by simp)) (.rerun n) (by simp) ⟨hle, ?_, ?_⟩
    · rwa [List.append_assoc] at hstart
    · rw [resyncsInTick_concat _ (by simp)]
      exact hn'
    · rw [runsInTick_concat _ (by simp)]
      exact Nat.add_le_add_right hr' 1
  · obtain ⟨hrun, hn', hr'⟩ := hresync false
    have hfailed := hrun.attemptFailed hle hn' (hr'.trans (Nat.le_succ n))
    rwa [List.append_assoc] at hfailed

theorem Faithful.running (h : s.Faithful config before) (hs : s.stage ≠ .spawned) :
    s.Running config before :=
  ⟨h.toRecorded, h.initial, h.started hs⟩

theorem Faithful.startTick (h : s.Faithful config before) {seconds : ℕ}
    (hs : s.stage = .wait seconds) :
    s.startTick.2.Faithful config (before ++ s.startTick.1) := by
  have hrun := h.running (by rw [hs]; simp)
  unfold CollectionLoop.startTick
  split
  · rename_i hadmitted
    have hshutdown : .shutdown ∉ before := by
      have hst := h.stage
      rwa [hs] at hst
    have hclosed : .closed ∉ before := fun hm => by
      rw [h.closed.mpr hm] at hadmitted
      cases hadmitted
    have htick := hrun.concat (e := .tick) ⟨hshutdown, hclosed⟩ rfl (by simp) (by simp)
      (misses_concat ..)
    have hstart := htick.toRecorded.startRun htick.initial (fun _ => htick.started)
      ((runsInTick_tick before).trans_le (Nat.zero_le _)) (.inl (runsInTick_tick before))
      .run (by simp) ⟨?_, ?_⟩
    · rwa [List.append_assoc] at hstart
    · rw [runsInTick_concat _ (by simp), runsInTick_tick]
      rfl
    · rw [resyncsInTick_concat _ (by simp), resyncsInTick_tick]
      rfl
  · rw [List.append_nil]
    exact hrun.moveTo (by simp) trivial

/-- A signal says nothing of the present tick, unless the loop waits for the next. -/
theorem records_signal {stage : LoopStage} {e : LoopEvent} (hs : stage.Records config before)
    (he : e = .closed ∨ e = .shutdown ∧ ∀ seconds, stage ≠ .wait seconds) :
    stage.Records config (before ++ [e]) := by
  have hruns : runsInTick (before ++ [e]) = runsInTick before := by
    rcases he with rfl | ⟨rfl, -⟩
    · exact runsInTick_concat _ (by simp)
    · exact runsInTick_concat _ (by simp)
  have hresyncs : resyncsInTick (before ++ [e]) = resyncsInTick before := by
    rcases he with rfl | ⟨rfl, -⟩
    · exact resyncsInTick_concat _ (by simp)
    · exact resyncsInTick_concat _ (by simp)
  cases stage with
  | wait seconds =>
    rcases he with rfl | ⟨-, he⟩
    · simpa [LoopStage.Records] using hs
    · exact absurd rfl (he seconds)
  | stopped => trivial
  | _ =>
    simp only [LoopStage.Records, hruns, hresyncs] at hs ⊢
    exact hs

theorem Faithful.closeAdmission (h : s.Faithful config before) :
    ({ s with admitted := false } : CollectionLoop).Faithful config (before ++ [.closed]) where
  allowed := (History.always_concat_iff _).mpr ⟨h.allowed, trivial⟩
  shutdown := by simp [h.shutdown]
  closed := by simp
  retries := by rw [misses_concat]; exact h.retries
  forceFlag := by simp [h.forceFlag, LoopEvent.isRun]
  forceRefreshFlag := by simp [h.forceRefreshFlag, LoopEvent.isRun]
  stage := records_signal h.stage (.inl rfl)
  initial := by rw [misses_concat]; exact h.initial
  spawned := h.spawned
  started := fun hs => by simp [h.started hs]

theorem Faithful.cancel (h : s.Faithful config before) :
    s.cancel.Faithful config (before ++ [.shutdown]) := by
  have hrecorded : ({ s with cancelled := true } : CollectionLoop).Recorded config
      (before ++ [.shutdown]) :=
    { allowed := (History.always_concat_iff _).mpr ⟨h.allowed, trivial⟩
      shutdown := by simp
      closed := by simp [h.closed]
      retries := by rw [misses_concat]; exact h.retries
      forceFlag := by simp [h.forceFlag, LoopEvent.isRun]
      forceRefreshFlag := by simp [h.forceRefreshFlag, LoopEvent.isRun] }
  have hmisses : misses (before ++ [.shutdown]) = misses before := misses_concat ..
  unfold CollectionLoop.cancel
  split
  · rename_i seconds hs
    exact ⟨hrecorded.move .stopped s.initial, trivial, fun hi => hmisses ▸ h.initial hi,
      fun hst => (by cases hst), fun _ => by simp [h.started (by rw [hs]; simp)]⟩
  · rename_i hs
    exact ⟨hrecorded, records_signal h.stage (.inr ⟨rfl, hs⟩), fun hi => hmisses ▸ h.initial hi,
      h.spawned, fun hst => by simp [h.started hst]⟩

theorem Faithful.spawn (h : s.Faithful config before) (hs : s.stage = .spawned) :
    (s.startRun .run).2.Faithful config (before ++ (s.startRun .run).1) := by
  have hst := h.stage
  rw [hs] at hst
  refine h.toRecorded.startRun h.initial (fun hi => ?_) (hst.1.trans_le (Nat.zero_le _))
    (.inl hst.1) .run (by simp) ⟨?_, ?_⟩
  · rw [h.spawned hs] at hi
    cases hi
  · rw [runsInTick_concat _ (by simp), hst.1]
    rfl
  · rw [resyncsInTick_concat _ (by simp), hst.2]
    rfl

theorem faithful_step (before : List LoopEvent) (s : CollectionLoop) (input : LoopInput)
    (h : s.Faithful config before) :
    ((collectionLoop config).step s input).2.Faithful config
      (before ++ ((collectionLoop config).step s input).1) := by
  have hst := h.stage
  have hidle : s.Faithful config (before ++ []) := by rwa [List.append_nil]
  cases input with
  | cancel => exact h.cancel
  | closeAdmission => exact h.closeAdmission
  | spawn =>
    cases hs : s.stage with
    | spawned => simpa only [collectionLoop, hs] using h.spawn hs
    | _ => simpa only [collectionLoop, hs] using hidle
  | runEnded result =>
    cases hs : s.stage with
    | run =>
      rw [hs] at hst
      simpa only [collectionLoop, hs] using
        (h.running (by rw [hs]; simp)).runEnded hst.1 hst.2 result
    | rerun n =>
      rw [hs] at hst
      simpa only [collectionLoop, hs] using
        (h.running (by rw [hs]; simp)).rerunEnded hst.1 hst.2.1 hst.2.2 result
    | _ => simpa only [collectionLoop, hs] using hidle
  | resyncEnded result =>
    cases hs : s.stage with
    | resync n =>
      rw [hs] at hst
      simpa only [collectionLoop, hs] using
        (h.running (by rw [hs]; simp)).resyncEnded hst.1 hst.2.1 hst.2.2 result
    | _ => simpa only [collectionLoop, hs] using hidle
  | elapsed =>
    cases hs : s.stage with
    | backoff n seconds =>
      rw [hs] at hst
      simpa only [collectionLoop, hs] using
        (h.running (by rw [hs]; simp)).attempt (congrArg (· + 1) hst.2.1) hst.2.2
    | wait seconds => simpa only [collectionLoop, hs] using h.startTick hs
    | _ => simpa only [collectionLoop, hs] using hidle

theorem faithful_new (config : LoopConfig) : (new config).Faithful config [] where
  allowed := .nil
  shutdown := by simp [new]
  closed := by simp [new]
  retries := by simp [new, misses]
  forceFlag := by simp [new]
  forceRefreshFlag := by simp [new]
  stage := ⟨rfl, rfl⟩
  initial := fun _ => rfl
  spawned := fun _ => rfl
  started := fun hs => absurd rfl hs

end CollectionLoop

/-- Whatever the runs, the reads of the stores and the signals, the loop does what is allowed. -/
theorem collectionLoop_allowed (config : LoopConfig) (inputs : List LoopInput) :
    History.Always (Allowed config)
      ((collectionLoop config).history (CollectionLoop.new config) inputs) :=
  (Machine.history_invariant (I := CollectionLoop.Faithful config) CollectionLoop.faithful_step
    (CollectionLoop.faithful_new config) inputs).allowed

/-! ## After a signal -/

theorem runsInTick_le {config : LoopConfig} {events : List LoopEvent}
    (h : History.Always (Allowed config) events) :
    runsInTick events ≤ config.policy.maxAttempts + 1 := by
  induction events using List.reverseRecOn with
  | nil => exact Nat.zero_le _
  | append_singleton events e ih =>
    obtain ⟨hbefore, he⟩ := (History.always_concat_iff e).mp h
    cases e with
    | tick =>
      rw [runsInTick_tick]
      exact Nat.zero_le _
    | runStarted forceUnlock forceRefresh =>
      rw [runsInTick_concat _ (by simp)]
      exact Nat.add_le_add_right he.2.2.1 1
    | _ =>
      rw [runsInTick_concat _ (by simp)]
      exact ih hbefore

theorem runsInTick_append {before later : List LoopEvent} (h : .tick ∉ later) :
    runsInTick (before ++ later) = runsInTick before + later.countP LoopEvent.isRun := by
  induction later using List.reverseRecOn with
  | nil => rw [List.append_nil, List.countP_nil, Nat.add_zero]
  | append_singleton later e ih =>
    rw [List.mem_append, not_or, List.mem_singleton] at h
    rw [← List.append_assoc, runsInTick_concat _ (fun he => h.2 he.symm), ih h.1,
      List.countP_append, List.countP_singleton]
    cases e.isRun <;> simp [Nat.add_assoc]

/--
After a shutdown or the closing of admission no tick begins. The runs that still start retry the
one of the present tick, which has one more run than the policy has attempts, at most.
-/
theorem collectionLoop_after_signal (config : LoopConfig) (inputs : List LoopInput)
    (before later : List LoopEvent) (signal : LoopEvent)
    (hsignal : signal = .shutdown ∨ signal = .closed)
    (h : (collectionLoop config).history (CollectionLoop.new config) inputs =
      before ++ signal :: later) :
    .tick ∉ later ∧
      runsInTick before + later.countP LoopEvent.isRun ≤ config.policy.maxAttempts + 1 := by
  have hallowed := collectionLoop_allowed config inputs
  rw [h] at hallowed
  have htick : .tick ∉ later := by
    intro hm
    obtain ⟨mid, rest, rfl⟩ := List.append_of_mem hm
    rw [← List.cons_append, ← List.append_assoc] at hallowed
    have hno := hallowed.split
    rcases hsignal with rfl | rfl
    · exact hno.1 (by simp)
    · exact hno.2 (by simp)
  refine ⟨htick, ?_⟩
  have hle := runsInTick_le hallowed
  rw [List.append_cons, runsInTick_append htick] at hle
  rcases hsignal with rfl | rfl
  · rwa [runsInTick_concat _ (by simp)] at hle
  · rwa [runsInTick_concat _ (by simp)] at hle

theorem collectionLoop_after_shutdown_fenced :
    .tick ∉ [LoopEvent.resynced true, .runStarted false false, .slept 2] ∧
      runsInTick [.runStarted true false]
        + [LoopEvent.resynced true, .runStarted false false, .slept 2].countP LoopEvent.isRun ≤ 4 :=
  collectionLoop_after_signal ⟨true, false, true, .default⟩
    [.spawn, .cancel, .runEnded (.ok .fencedConflict), .resyncEnded (.ok ()),
      .runEnded (.ok .fencedConflict)]
    [.runStarted true false] [.resynced true, .runStarted false false, .slept 2] .shutdown
    (.inl rfl) rfl

end GhReport.App
