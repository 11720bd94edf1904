import GhReport.Delivery.Service
import GhReport.Publication.Continuity

/-! # Jobs, their workers, and removals by webhook

Jobs wait in the queue, run on a worker, and leave an outcome in the channel that
the delivery loop reads. A webhook removes a repository at any point between
these steps, and so do the other writers write.
-/

namespace GhReport.Delivery

open Domain Projection App

/-! ## Machine -/

/-- A queued job; `enqueued` is when that was, which no step reads. -/
structure Job where
  domainKey : String
  source : JobSource
  correlation : Option RunId
  enqueued : ℕ

/-- An outcome carries the key, the source and the correlation of its job. -/
def Job.outcome (job : Job) (result : Except String RepositoryEvidence) : JobOutcome :=
  ⟨job.domainKey, job.source, job.correlation, result, job.enqueued⟩

/-- A removal between two attempts at its write. -/
structure Removal where
  inventoryKey : String
  timestamp : String
  attempt : ℕ

def Removal.op (removal : Removal) : WriteOp :=
  .removeRepo removal.inventoryKey removal.inventoryKey removal.timestamp

/--
The daemon; its clock, when each key was removed with success, and the outcomes that were
recorded with success, are a history that no step reads.
-/
structure Daemon where
  service : Service
  queue : List Job
  running : List Job
  outcomes : List JobOutcome
  removing : List Removal
  clock : ℕ
  removed : List (String × ℕ)
  recorded : List JobOutcome

/-- A step of the service that takes no outcome and makes no write beside the loop's. -/
def ServiceInput.Own : ServiceInput → Prop
  | .receive .. | .write .. => False
  | _ => True

/-- A write of anything but a repository's evidence or its removal by webhook. -/
def ServiceInput.Beside : WriteOp → Prop
  | .recordRepo .. | .removeRepo .. => False
  | _ => True

inductive DaemonInput where
  | enqueue (domainKey : String) (source : JobSource) (correlation : Option RunId)
  | start (job : ℕ)
  | finish (job : ℕ) (result : Except String RepositoryEvidence)
  | receive (timestamp : String)
  | remove (inventoryKey timestamp : String)
  | removeAgain (removal : ℕ) (fates : Fates)
  | service (input : { input : ServiceInput // input.Own })
  | write (op : { op : WriteOp // ServiceInput.Beside op }) (fates : Fates)

namespace Daemon

variable (d : Daemon)

def projection : EvidenceProjection := d.service.app.projectionState.value

def startJob (job : ℕ) : Daemon :=
  match d.queue[job]? with
  | some j => { d with queue := d.queue.eraseIdx job, running := d.running ++ [j] }
  | none => d

def finishJob (job : ℕ) (result : Except String RepositoryEvidence) : Daemon :=
  match d.running[job]? with
  | some j =>
    { d with running := d.running.eraseIdx job, outcomes := d.outcomes ++ [j.outcome result] }
  | none => d

/-- The loop takes the first outcome of the channel when it has the gate. -/
def receive (timestamp : String) : Daemon :=
  match d.outcomes, d.service.gate, d.service.loopStopped with
  | outcome :: rest, .free, false =>
    { d with outcomes := rest, service := d.service.receive outcome timestamp }
  | _, _, _ => d

/-- A repository that the projection does not hold needs no write. -/
def executeRemove (inventoryKey timestamp : String) : Daemon :=
  if d.service.app.projectionState.poisoned then d
  else if d.projection.repositories.contains inventoryKey then
    { d with removing := d.removing ++ [⟨inventoryKey, timestamp, 1⟩] }
  else { d with removed := d.removed ++ [(inventoryKey, d.clock)] }

def removeAgain (R : Runtime) (removal : ℕ) (fates : Fates) : Daemon :=
  match d.removing[removal]? with
  | none => d
  | some r =>
    let written := d.service.write R r.op fates
    let after := { d with service := written.2, removing := d.removing.eraseIdx removal }
    match attempted r.attempt written.1 with
    | .done => { after with removed := d.removed ++ [(r.inventoryKey, d.clock)] }
    | .again =>
      { after with removing := d.removing.set removal { r with attempt := r.attempt + 1 } }
    | .failed => after

/-- The outcome that a step records, if its attempt succeeds. -/
def recording (i : ServiceInput) (answer : ServiceAnswer) : List JobOutcome :=
  match i, d.service.gate, answer with
  | .attempt _, .delivering p, .wrote (.ok ()) => [p.outcome]
  | _, _, _ => []

def tick : Daemon := { d with clock := d.clock + 1 }

end Daemon

def daemon (R : Runtime) : Machine Daemon DaemonInput Unit where
  step d i := ((), Daemon.tick (match i with
    | .enqueue domainKey source correlation =>
      { d with queue := d.queue ++ [⟨domainKey, source, correlation, d.clock⟩] }
    | .start job => d.startJob job
    | .finish job result => d.finishJob job result
    | .receive timestamp => d.receive timestamp
    | .remove inventoryKey timestamp => d.executeRemove inventoryKey timestamp
    | .removeAgain removal fates => d.removeAgain R removal fates
    | .service input =>
      let stepped := (machine R).step d.service input.1
      { d with service := stepped.2, recorded := d.recorded ++ d.recording input.1 stepped.1 }
    | .write op fates => { d with service := (d.service.write R op.1 fates).2 }))

/-- Nothing is queued, and no run was ever started. -/
def Daemon.init (app : AppState) : Daemon := ⟨.init app, [], [], [], [], 0, [], []⟩

/-! ## Removed repositories -/

/-- The outcome is of an evaluation that was enqueued before a removal of its key. -/
def Daemon.Stale (d : Daemon) (outcome : JobOutcome) : Prop :=
  ∃ removal ∈ d.removed, removal.1 = outcome.domainKey ∧ outcome.enqueued < removal.2

/-- The outcome that a step tries to record. -/
def Daemon.attempting (d : Daemon) : DaemonInput → Option JobOutcome
  | .service ⟨.attempt _, _⟩ =>
    match d.service.gate with
    | .delivering p => some p.outcome
    | _ => none
  | _ => none

/-- The step records no stale outcome whose key the projection does not hold. -/
def Daemon.SparesRemoved (d : Daemon) (i : DaemonInput) : Prop :=
  ∀ outcome ∈ d.attempting i, d.Stale outcome → outcome.domainKey ∈ d.projection.repositories

instance (d : Daemon) (outcome : JobOutcome) : Decidable (d.Stale outcome) :=
  inferInstanceAs (Decidable (∃ removal ∈ d.removed, _))

instance (d : Daemon) (i : DaemonInput) : Decidable (d.SparesRemoved i) :=
  inferInstanceAs (Decidable (∀ outcome ∈ d.attempting i, _))

/-- A removed key that is held again was recorded from an evaluation enqueued after that. -/
def Daemon.Removed (d : Daemon) : Prop :=
  ∀ k t, (k, t) ∈ d.removed → d.projection.repositories[k]? ≠ none →
    ∃ outcome ∈ d.recorded, outcome.domainKey = k ∧ t ≤ outcome.enqueued

namespace Daemon

variable {R : Runtime} {d : Daemon}

/-- What records nothing puts no key back. -/
theorem before_ne_none {s : AppState} {op : WriteOp} {fates : Fates} {k : String}
    (hop : ∀ evidence repoName timestamp, op ≠ .recordRepo k evidence repoName timestamp)
    (hafter :
      ((App.machine R).step s (op, fates)).2.projectionState.value.repositories[k]? ≠ none) :
    s.projectionState.value.repositories[k]? ≠ none := by
  rcases moves_step (R := R) s (op, fates) k with ⟨-, hmoves⟩ | ⟨-, hsame⟩
  · obtain ⟨e, he⟩ := Option.ne_none_iff_exists'.mp hafter
    rcases hmoves.origin he with hbefore | ⟨evidence, repoName, timestamp, hrecord, -⟩
    · rw [hbefore]
      exact Option.some_ne_none e
    · exact absurd hrecord (hop evidence repoName timestamp)
  · rwa [hsame] at hafter

/-- Nothing is put back by a step that keeps the histories and puts no key into the projection. -/
theorem Removed.unmoved {d' : Daemon} (h : d.Removed) (hremoved : d'.removed = d.removed)
    (hrecorded : d.recorded ⊆ d'.recorded)
    (hrepo : ∀ k : String, d'.projection.repositories[k]? ≠ none →
      d.projection.repositories[k]? ≠ none) :
    d'.Removed := by
  intro k t hmem hafter
  rw [hremoved] at hmem
  obtain ⟨outcome, houtcome, hkey⟩ := h k t hmem (hrepo k hafter)
  exact ⟨outcome, hrecorded houtcome, hkey⟩

theorem Removed.removed {d' : Daemon} (h : d.Removed) {key : String} {t : ℕ}
    (hremoved : d'.removed = d.removed ++ [(key, t)]) (hrecorded : d'.recorded = d.recorded)
    (hkey : d'.projection.repositories[key]? = none)
    (hrepo : ∀ k : String, d'.projection.repositories[k]? ≠ none →
      d.projection.repositories[k]? ≠ none) :
    d'.Removed := by
  intro k t' hmem hafter
  rw [hremoved] at hmem
  rcases List.mem_append.mp hmem with hmem | hmem
  · rw [hrecorded]
    exact h k t' hmem (hrepo k hafter)
  · obtain ⟨rfl, rfl⟩ := Prod.mk.inj (List.mem_singleton.mp hmem)
    exact absurd hkey hafter

theorem removed_removeAgain (h : d.Removed) (removal : ℕ) (fates : Fates) :
    (d.removeAgain R removal fates).Removed := by
  unfold removeAgain
  split
  · exact h
  · next r hr =>
    have hrepo : ∀ k : String,
        (d.service.write R r.op fates).2.app.projectionState.value.repositories[k]? ≠ none →
          d.projection.repositories[k]? ≠ none := by
      intro k hafter
      rw [Service.write_app] at hafter
      refine before_ne_none ?_ hafter
      intro evidence repoName timestamp hop
      cases hop
    dsimp only
    split
    · next hdone =>
      refine h.removed rfl rfl ?_ hrepo
      have hok := attempted_eq_done hdone
      rw [Service.write_answer] at hok
      change (d.service.write R r.op fates).2.app.projectionState.value.repositories[_]? = none
      rw [Service.write_app]
      rcases moves_step (R := R) d.service.app (r.op, fates) r.inventoryKey with
        ⟨-, hmoves⟩ | ⟨hne, -⟩
      · have hmoves : _ = if r.inventoryKey = r.inventoryKey then none else _ := hmoves
        rw [hmoves, if_pos rfl]
      · exact absurd hok hne
    · exact h.unmoved rfl (List.Subset.refl _) hrepo
    · exact h.unmoved rfl (List.Subset.refl _) hrepo

theorem removed_service (h : d.Removed) (input : { input : ServiceInput // input.Own })
    (hspares : d.SparesRemoved (.service input)) :
    Daemon.Removed
      { d with
        service := ((machine R).step d.service input.1).2
        recorded := d.recorded ++ d.recording input.1 ((machine R).step d.service input.1).1 } := by
  intro k t hmem hafter
  change ((machine R).step d.service input.1).2.app.projectionState.value.repositories[k]? ≠ none
    at hafter
  have hold : d.projection.repositories[k]? ≠ none → ∃ outcome ∈ d.recorded ++
      d.recording input.1 ((machine R).step d.service input.1).1,
      outcome.domainKey = k ∧ t ≤ outcome.enqueued := by
    intro hbefore
    obtain ⟨outcome, houtcome, hkey⟩ := h k t hmem hbefore
    exact ⟨outcome, List.mem_append_left _ houtcome, hkey⟩
  rw [Service.projection_step] at hafter
  split at hafter
  · next write hwrite =>
    obtain ⟨input, hown⟩ := input
    cases input with
    | receive | write => exact hown.elim
    | publish | published | retire | conclude | stop => cases hwrite
    | attempt fates =>
      simp only [Service.writeOf] at hwrite
      split at hwrite
      · next p hgate =>
        cases hwrite
        by_cases hbefore : d.projection.repositories[k]? = none
        · have hok : ((App.machine R).step d.service.app (p.op, fates)).1 = .ok () ∧
              p.outcome.domainKey = k := by
            rcases moves_step (R := R) d.service.app (p.op, fates) k with ⟨hok, hmoves⟩ | ⟨-, hsame⟩
            · obtain ⟨recorded, -, hmoves⟩ := hmoves
              refine ⟨hok, ?_⟩
              by_contra hkey
              rw [if_neg hkey] at hmoves
              exact hafter (hmoves.trans hbefore)
            · rw [hsame] at hafter
              exact absurd hbefore hafter
          obtain ⟨hok, rfl⟩ := hok
          refine ⟨p.outcome, List.mem_append_right _ ?_, rfl, ?_⟩
          · have hanswer : (d.service.attempt R p fates).1 = .ok () :=
              (Service.write_answer p.op fates).trans hok
            simp [recording, machine, hgate, hanswer]
          · by_contra hlt
            have hattempt : p.outcome ∈ d.attempting (.service ⟨.attempt fates, hown⟩) := by
              simp [attempting, hgate]
            have hheld := hspares _ hattempt ⟨_, hmem, rfl, Nat.lt_of_not_le hlt⟩
            simp [hheld] at hbefore
        · exact hold hbefore
      · cases hwrite
  · exact hold hafter

theorem removed_step (d : Daemon) (i : DaemonInput) (h : d.Removed) (hi : d.SparesRemoved i) :
    ((daemon R).step d i).2.Removed := by
  change Daemon.Removed (Daemon.tick _)
  cases i with
  | enqueue domainKey source correlation => exact h
  | start job =>
    unfold startJob
    dsimp only
    split <;> exact h
  | finish job result =>
    unfold finishJob
    dsimp only
    split <;> exact h
  | receive timestamp =>
    unfold receive
    dsimp only
    split
    · refine h.unmoved rfl (List.Subset.refl _) fun k hafter => ?_
      simpa [projection, tick] using hafter
    · exact h
  | remove inventoryKey timestamp =>
    unfold executeRemove
    dsimp only
    split
    · exact h
    · split
      · exact h
      · next habsent =>
        refine h.removed rfl rfl ?_ fun _ => id
        change d.projection.repositories[inventoryKey]? = none
        simpa using habsent
  | removeAgain removal fates => exact removed_removeAgain h removal fates
  | service input => exact removed_service h input hi
  | write op fates =>
    refine h.unmoved rfl (List.Subset.refl _) fun k hafter => ?_
    obtain ⟨op, hbeside⟩ := op
    change
      (d.service.write R op fates).2.app.projectionState.value.repositories[k]? ≠ none at hafter
    rw [Service.write_app] at hafter
    refine before_ne_none ?_ hafter
    rintro evidence repoName timestamp rfl
    exact hbeside

end Daemon

/--
A repository that a webhook removed comes back only through an evaluation enqueued after that,
over every run that records no stale outcome while the projection does not hold its key.
-/
theorem removed_stays_removed (R : Runtime) (app : AppState) (is : List DaemonInput)
    (hspares : (daemon R).Along Daemon.SparesRemoved (.init app) is) :
    let d := (daemon R).after (.init app) is
    ∀ k t, (k, t) ∈ d.removed → d.projection.repositories[k]? ≠ none →
      ∃ outcome ∈ d.recorded, outcome.domainKey = k ∧ t ≤ outcome.enqueued := by
  have hinit : (Daemon.init app).Removed := nofun
  exact Machine.invariant_along (I := Daemon.Removed) Daemon.removed_step hinit hspares

/-! ## Runs -/

section Runs

open Publication

def sampleEnqueue : DaemonInput := .enqueue "key" (.external "delivery" "push") none

/-- The worker ends the job with evidence, and the loop takes it. -/
def sampleEvaluated : List DaemonInput :=
  [.finish 0 (.ok (sampleEvidence "key" true)), .receive sampleTimestamp]

def sampleFates (fiber : Store.FiberStatus) : Fates := ⟨landingOn fiber, landingOn fiber⟩

def sampleAttempt (fiber : Store.FiberStatus) : DaemonInput :=
  .service ⟨.attempt (sampleFates fiber), trivial⟩

def sampleRemove : List DaemonInput :=
  [.remove "key" sampleTimestamp, .removeAgain 0 (sampleFates .active)]

/-- The repository is recorded, and removed while it is evaluated again. -/
def sampleOvertaken : List DaemonInput :=
  [sampleEnqueue, .start 0] ++ sampleEvaluated ++
    [sampleAttempt .undefined, sampleEnqueue, .start 0]
    ++ sampleRemove ++ sampleEvaluated ++ [sampleAttempt .detached]

def sampleDaemon (is : List DaemonInput) : Daemon := (daemon sampleRuntime).after (.init .empty) is

/-- The evaluation that was running when its repository was removed puts it back. -/
theorem removed_repository_recorded :
    let d := sampleDaemon sampleOvertaken
    d.removed = [("key", 8)] ∧ "key" ∈ d.projection.repositories ∧
      d.recorded.map (fun outcome => (outcome.domainKey, outcome.enqueued)) =
        [("key", 0), ("key", 5)] := by
  refine ⟨?_, ?_, ?_⟩
  · decide +kernel
  · decide +kernel
  · decide +kernel

/-- The repository is removed, and evaluated anew after that. -/
def sampleRenewed : List DaemonInput :=
  [sampleEnqueue, .start 0] ++ sampleEvaluated ++ [sampleAttempt .undefined] ++ sampleRemove
    ++ [sampleEnqueue, .start 0] ++ sampleEvaluated ++ [sampleAttempt .detached]

theorem removed_stays_removed_renewed :
    ∃ outcome ∈ (sampleDaemon sampleRenewed).recorded, outcome.domainKey = "key" ∧
      6 ≤ outcome.enqueued := by
  have hspares :
      (daemon sampleRuntime).Along Daemon.SparesRemoved (.init .empty) sampleRenewed := by
    decide +kernel
  have hremoved : ("key", 6) ∈ (sampleDaemon sampleRenewed).removed := by
    decide +kernel
  have hheld : "key" ∈ (sampleDaemon sampleRenewed).projection.repositories := by
    decide +kernel
  refine removed_stays_removed sampleRuntime .empty sampleRenewed hspares "key" 6 hremoved ?_
  change (sampleDaemon sampleRenewed).projection.repositories["key"]? ≠ none
  simpa using hheld

end Runs

end GhReport.Delivery
