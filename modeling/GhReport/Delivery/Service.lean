import GhReport.App.Evidence
import GhReport.App.Policy
import GhReport.Publication.Publisher

/-! # Scheduled runs and the delivery of their outcomes

A scheduled run publishes its batch and later retires; in between, the delivery
loop records the outcomes of its jobs one after another. A gate keeps publication,
delivery and retirement apart from each other, but not from other writers.
-/

namespace GhReport.Delivery

open Domain Projection App

/-! ## Outcomes -/

abbrev RunId := BitVec 128

inductive JobSource where
  | initialLoad
  | scheduledBatch
  | external (id kind : String)
deriving DecidableEq

/-- What a worker sends; `enqueued` is when its job was enqueued, which no step reads. -/
structure JobOutcome where
  domainKey : String
  source : JobSource
  correlation : Option RunId
  result : Except String RepositoryEvidence
  enqueued : ℕ

/-- The conflict that aborts a run; no other failure is one. -/
structure FenceSignal where
  error : PersistenceError
  conflict : WritePolicyCategory.classify error = .conflict

inductive DeliveryStep where
  | delivered
  | reconciliationRequired (error : PersistenceError)
  | unpersisted (error : PersistenceError)
  | fenced (signal : FenceSignal)

def classifyPersistFailure (error : PersistenceError) : DeliveryStep :=
  match h : WritePolicyCategory.classify error with
  | .reconciliationRequired => .reconciliationRequired error
  | .conflict => .fenced ⟨error, h⟩
  | _ => .unpersisted error

/-- The evidence of a repository whose evaluation failed. -/
def failureEvidence (repo : Repository) (runTimestamp : String) : RepositoryEvidence :=
  Publication.failureEvidenceWithReason repo runTimestamp "collection_error"

/-! ## State -/

inductive RetireOutcome where
  | retired (fence : Option FenceSignal)
  | notOwner

inductive AppError where
  | persistence (error : PersistenceError)
  | runOwnershipLost

/--
A run: the slots that its tracker has left and its first failure, and what its own task
knows; whether the tracker was ever drained is a history that no step reads.
-/
structure ScheduledRun where
  id : RunId
  tracker : ℕ
  failure : Option PersistenceError
  total : ℕ
  accepted : ℕ
  retired : Option RetireOutcome
  result : Option (Except AppError Bool)
  drained : Bool

/-- An outcome that is being recorded, `attempt` counting the attempts. -/
structure Pending where
  outcome : JobOutcome
  owner : Option ℕ
  evidence : RepositoryEvidence
  timestamp : String
  attempt : ℕ

def Pending.op (p : Pending) : WriteOp :=
  .recordRepo p.outcome.domainKey p.evidence p.evidence.repository.name p.timestamp

inductive Gate where
  | free
  | publishing (run : ℕ)
  | delivering (pending : Pending)

/-- What became of an outcome; without a step it was discarded, or its write panicked. -/
structure Handled where
  outcome : JobOutcome
  owner : Option ℕ
  step : Option DeliveryStep

/-- Runs are named by their position; `handled` is a history that no step reads. -/
structure Service where
  app : AppState
  gate : Gate
  runs : List ScheduledRun
  scheduledRun : Option ℕ
  batchTracker : Option ℕ
  runFence : Option FenceSignal
  loopStopped : Bool
  handled : List Handled

namespace Service

variable (s : Service)

def modifyRun (run : Option ℕ) (f : ScheduledRun → ScheduledRun) : Service :=
  match run with
  | some i => { s with runs := s.runs.modify i f }
  | none => s

def drain (run : Option ℕ) : Service :=
  s.modifyRun run fun r => { r with tracker := 0, drained := true }

def retireSlots (run : Option ℕ) (n : ℕ) : Service :=
  s.modifyRun run fun r => { r with tracker := r.tracker - n }

/-! ## Admission -/

/-- Locking a poisoned slot drains the scheduled run. -/
def lockAdmission : Service :=
  if s.app.writeAdmission.poisoned then s.drain s.scheduledRun else s

def stopForReconciliation (error : PersistenceError) : Service :=
  let app := if (lockWriteAdmission s.app).isNone then latch s.app error else s.app
  ({ s with app := app }.drain s.scheduledRun).drain s.batchTracker

/-- A write; one that latches the slot drains the scheduled run, and a panic drains twice. -/
def write (R : Runtime) (op : WriteOp) (fates : Fates) :
    Except (Stop PersistenceError) Unit × Service :=
  let written := (App.machine R).step s.app (op, fates)
  let after := { s.lockAdmission with app := written.2 }
  match written.1 with
  | .error .panic => (written.1, (after.drain s.scheduledRun).drain s.batchTracker)
  | answer =>
    if (lockWriteAdmission s.app).isNone && (lockWriteAdmission written.2).isSome then
      (answer, after.drain s.scheduledRun)
    else (answer, after)

/-! ## The delivery loop -/

def handle (outcome : JobOutcome) (owner : Option ℕ) (step : Option DeliveryStep) : Service :=
  { s with gate := .free, handled := s.handled ++ [⟨outcome, owner, step⟩] }

/-- The first fence is kept; the batch is abandoned as a whole. -/
def fenceActiveRun (signal : FenceSignal) : Service :=
  { s with runFence := some (s.runFence.getD signal) }.drain s.batchTracker

def applyOwnedDeliveryStep (step : DeliveryStep) (owner : Option ℕ) : Service :=
  match step with
  | .reconciliationRequired error => s.stopForReconciliation error
  | .fenced signal => s.fenceActiveRun signal
  | .delivered => s.retireSlots owner 1
  | .unpersisted error =>
    (s.modifyRun owner fun r => { r with failure := some (r.failure.getD error) }).retireSlots
      owner 1

/-- The active run, if the outcome is one of its batch; nothing for one of another run. -/
def ownerOf (outcome : JobOutcome) : Option (Option ℕ) :=
  match outcome.source with
  | .scheduledBatch =>
    match s.scheduledRun with
    | some i => if s.runs[i]?.map ScheduledRun.id = outcome.correlation then some (some i) else none
    | none => none
  | .initialLoad | .external .. => some none

/-- The loop takes an outcome; a poisoned projection panics, which ends the loop. -/
def receive (outcome : JobOutcome) (timestamp : String) : Service :=
  let s := s.lockAdmission
  if (lockWriteAdmission s.app).isSome then { s with loopStopped := true }
  else
    match s.ownerOf outcome with
    | none => s.handle outcome none none
    | some owner =>
      if s.runFence.isSome then s.handle outcome owner none
      else
        match outcome.result with
        | .ok evidence =>
          { s with gate := .delivering ⟨outcome, owner, evidence, timestamp, 1⟩ }
        | .error _ =>
          if s.app.projectionState.poisoned then
            { s.handle outcome owner none with loopStopped := true }
          else
            match s.app.projectionState.value.repositories[outcome.domainKey]? with
            | some existing =>
              let failure := failureEvidence existing.repository timestamp
              { s with gate := .delivering ⟨outcome, owner, failure, timestamp, 1⟩ }
            | none =>
              (s.applyOwnedDeliveryStep .delivered owner).handle outcome owner (some .delivered)

/-- One attempt at recording an outcome. -/
def attempt (R : Runtime) (p : Pending) (fates : Fates) :
    Except (Stop PersistenceError) Unit × Service :=
  let written := s.write R p.op fates
  let after := written.2
  (written.1,
    match attempted p.attempt written.1 with
    | .again => { after with gate := .delivering { p with attempt := p.attempt + 1 } }
    | .done | .failed =>
      match written.1 with
      | .ok () =>
        (after.applyOwnedDeliveryStep .delivered p.owner).handle p.outcome p.owner (some .delivered)
      | .error (.error error) =>
        let step := classifyPersistFailure error
        (after.applyOwnedDeliveryStep step p.owner).handle p.outcome p.owner (some step)
      | .error .panic => { after.handle p.outcome p.owner none with loopStopped := true })

/-! ## Runs -/

/--
A run starts only without a latched fence, which it takes otherwise; until its batch is
enqueued, all of its jobs count as accepted.
-/
def publish (id : RunId) (expected : ℕ) : Option FenceSignal × Service :=
  match s.runFence with
  | some signal => (some signal, { s with runFence := none })
  | none =>
    let run := s.runs.length
    (none, { s with
      runs := s.runs ++ [⟨id, expected, none, expected, expected, none, none, false⟩]
      scheduledRun := some run
      batchTracker := some run
      gate := .publishing run })

/-- The batch is enqueued; slots of jobs that were not accepted are retired at once. -/
def published (run accepted : ℕ) : Service :=
  let s := { s with gate := .free }.modifyRun (some run) fun r =>
    { r with tracker := r.tracker - (r.total - accepted), accepted := accepted }
  let s := s.lockAdmission
  if (lockWriteAdmission s.app).isSome then s.drain (some run) else s

/-- A run retires once; only the active run takes the fence. -/
def retireBatch (run : ℕ) : Service :=
  if s.scheduledRun = some run then
    { s with scheduledRun := none, batchTracker := none, runFence := none }.modifyRun (some run)
      fun r => { r with retired := some (.retired s.runFence) }
  else s.modifyRun (some run) fun r => { r with retired := some .notOwner }

end Service

def batchOutcome : RetireOutcome → Except AppError Bool
  | .retired (some signal) => .error (.persistence signal.error)
  | .retired none => .ok true
  | .notOwner => .error .runOwnershipLost

/-- The result of a run that retired; a batch without accepted jobs ends the run early. -/
def ScheduledRun.outcome (r : ScheduledRun) (admission : Option PersistenceError)
    (retired : RetireOutcome) : Except AppError Bool := do
  if r.accepted = 0 ∧ r.total ≠ 0 then
    let _ ← batchOutcome retired
    return false
  if let some error := admission then
    throw (.persistence (.indeterminate (.persistence error)))
  let _ ← batchOutcome retired
  match r.failure with
  | some error => throw (.persistence error)
  | none => return true

def Service.conclude (s : Service) (run : ℕ) : Service :=
  let admission := lockWriteAdmission s.app
  s.lockAdmission.modifyRun (some run) fun r =>
    match r.retired, r.result with
    | some retired, none => { r with result := some (r.outcome admission retired) }
    | _, _ => r

/-! ## Machine -/

inductive ServiceInput where
  | publish (id : RunId) (expected : ℕ)
  | published (accepted : ℕ)
  | receive (outcome : JobOutcome) (timestamp : String)
  | attempt (fates : Fates)
  | retire (run : ℕ)
  | conclude (run : ℕ)
  | write (op : WriteOp) (fates : Fates)
  | stop (error : PersistenceError)

inductive ServiceAnswer where
  | silent
  | wrote (answer : Except (Stop PersistenceError) Unit)
  | fenced (signal : FenceSignal)

/-- Publication, delivery and retirement wait for the gate; a run retires and concludes once. -/
def machine (R : Runtime) : Machine Service ServiceInput ServiceAnswer where
  step s
    | .publish id expected =>
      match s.gate with
      | .free =>
        match s.publish id expected with
        | (some signal, s) => (.fenced signal, s)
        | (none, s) => (.silent, s)
      | _ => (.silent, s)
    | .published accepted =>
      match s.gate with
      | .publishing run => (.silent, s.published run accepted)
      | _ => (.silent, s)
    | .receive outcome timestamp =>
      match s.gate with
      | .free => (.silent, if s.loopStopped then s else s.receive outcome timestamp)
      | _ => (.silent, s)
    | .attempt fates =>
      match s.gate with
      | .delivering p =>
        let tried := s.attempt R p fates
        (.wrote tried.1, tried.2)
      | _ => (.silent, s)
    | .retire run =>
      match s.gate, s.runs[run]?.bind ScheduledRun.retired with
      | .free, none => (.silent, s.retireBatch run)
      | _, _ => (.silent, s)
    | .conclude run => (.silent, s.conclude run)
    | .write op fates =>
      let written := s.write R op fates
      (.wrote written.1, written.2)
    | .stop error => (.silent, s.stopForReconciliation error)

/-- No run was ever started. -/
def Service.init (app : AppState) : Service := ⟨app, .free, [], none, none, none, false, []⟩

/-! ## The projection -/

namespace Service

variable {s : Service} {R : Runtime}

@[simp] theorem modifyRun_app (run : Option ℕ) (f : ScheduledRun → ScheduledRun) :
    (s.modifyRun run f).app = s.app := by
  cases run <;> rfl

@[simp] theorem drain_app (run : Option ℕ) : (s.drain run).app = s.app :=
  modifyRun_app run _

@[simp] theorem retireSlots_app (run : Option ℕ) (n : ℕ) : (s.retireSlots run n).app = s.app :=
  modifyRun_app run _

@[simp] theorem lockAdmission_app : s.lockAdmission.app = s.app := by
  unfold lockAdmission
  split
  · exact drain_app _
  · rfl

@[simp] theorem handle_app (outcome : JobOutcome) (owner : Option ℕ) (step : Option DeliveryStep) :
    (s.handle outcome owner step).app = s.app := rfl

@[simp] theorem stopForReconciliation_projection (error : PersistenceError) :
    (s.stopForReconciliation error).app.projectionState = s.app.projectionState := by
  simp only [stopForReconciliation, drain_app]
  split <;> rfl

@[simp] theorem applyOwnedDeliveryStep_projection (step : DeliveryStep) (owner : Option ℕ) :
    (s.applyOwnedDeliveryStep step owner).app.projectionState = s.app.projectionState := by
  cases step with
  | delivered => simp [applyOwnedDeliveryStep]
  | reconciliationRequired error => exact stopForReconciliation_projection error
  | unpersisted error => simp [applyOwnedDeliveryStep]
  | fenced signal => simp [applyOwnedDeliveryStep, fenceActiveRun]

@[simp] theorem receive_app (outcome : JobOutcome) (timestamp : String) :
    (s.receive outcome timestamp).app = s.app := by
  unfold receive
  dsimp only
  split
  · simp
  · split
    · simp
    · split
      · simp
      · split
        · simp
        · split
          · simp
          · split
            · simp
            · simp [applyOwnedDeliveryStep]

@[simp] theorem published_app (run accepted : ℕ) : (s.published run accepted).app = s.app := by
  unfold published
  dsimp only
  split <;> simp only [drain_app, lockAdmission_app, modifyRun_app]

@[simp] theorem retireBatch_app (run : ℕ) : (s.retireBatch run).app = s.app := by
  unfold retireBatch
  split <;> simp

@[simp] theorem conclude_app (run : ℕ) : (s.conclude run).app = s.app := by
  simp [conclude]

theorem publish_app (id : RunId) (expected : ℕ) : (s.publish id expected).2.app = s.app := by
  unfold publish
  split <;> rfl

theorem write_answer (op : WriteOp) (fates : Fates) :
    (s.write R op fates).1 = ((App.machine R).step s.app (op, fates)).1 := by
  unfold write
  dsimp only
  split
  · rfl
  · split <;> rfl

@[simp] theorem write_app (op : WriteOp) (fates : Fates) :
    (s.write R op fates).2.app = ((App.machine R).step s.app (op, fates)).2 := by
  unfold write
  dsimp only
  split
  · simp
  · split <;> simp

theorem attempt_projection (p : Pending) (fates : Fates) :
    (s.attempt R p fates).2.app.projectionState =
      ((App.machine R).step s.app (p.op, fates)).2.projectionState := by
  unfold attempt
  dsimp only
  split
  · simp
  all_goals split <;> simp

/-- The write that a step makes. -/
def writeOf (s : Service) : ServiceInput → Option (WriteOp × Fates)
  | .write op fates => some (op, fates)
  | .attempt fates =>
    match s.gate with
    | .delivering p => some (p.op, fates)
    | _ => none
  | _ => none

theorem projection_step (i : ServiceInput) :
    ((machine R).step s i).2.app.projectionState =
      match s.writeOf i with
      | some write => ((App.machine R).step s.app write).2.projectionState
      | none => s.app.projectionState := by
  cases i with
  | publish id expected =>
    simp only [machine, writeOf]
    split
    · have happ := publish_app (s := s) id expected
      split <;> simp_all
    · rfl
  | published accepted =>
    simp only [machine, writeOf]
    split
    · simp
    · rfl
  | receive outcome timestamp =>
    simp only [machine, writeOf]
    split
    · split
      · rfl
      · rw [receive_app]
    · rfl
  | attempt fates =>
    simp only [machine, writeOf]
    split
    · exact attempt_projection _ fates
    · rfl
  | retire run =>
    simp only [machine, writeOf]
    split
    · simp
    · rfl
  | conclude run => simp [machine, writeOf]
  | write op fates => simp [machine, writeOf]
  | stop error => exact stopForReconciliation_projection error

end Service

end GhReport.Delivery
