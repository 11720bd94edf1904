import GhReport.Delivery.Ownership

/-! # The life of a run

The loop takes an outcome once and settles it once with the run that owned it, and
what a run reports is read off its account.
-/

namespace GhReport.Delivery

open Domain Projection App

variable {R : Runtime} {s s' : Service}

/-! ## Taken outcomes -/

/-- The outcomes that the loop took with their owners, the one being recorded last. -/
def Service.taken (s : Service) : List (JobOutcome × Option ℕ) :=
  s.handled.map (fun h => (h.outcome, h.owner)) ++
    match s.gate with
    | .delivering p => [(p.outcome, p.owner)]
    | _ => []

/-- The outcome that a step takes, owned by the active run if it is of its batch. -/
def Service.takes (s : Service) : ServiceInput → Option (JobOutcome × Option ℕ)
  | .receive outcome _ =>
    match s.gate with
    | .free =>
      if s.loopStopped || (lockWriteAdmission s.app).isSome then none
      else some (outcome, (s.ownerOf outcome).getD none)
    | _ => none
  | _ => none

theorem Drains.taken (h : Drains s s') : s'.taken = s.taken := by
  rw [Service.taken, Service.taken, h.handled, h.gate]

theorem taken_of_free (hgate : s.gate = .free) :
    s.taken = s.handled.map fun h => (h.outcome, h.owner) := by
  rw [Service.taken, hgate, List.append_nil]

theorem taken_of_delivering {p : Pending} (hgate : s.gate = .delivering p) :
    s.taken = s.handled.map (fun h => (h.outcome, h.owner)) ++ [(p.outcome, p.owner)] := by
  rw [Service.taken, hgate]

theorem taken_handle (outcome : JobOutcome) (owner : Option ℕ) (step : Option DeliveryStep) :
    (s.handle outcome owner step).taken =
      s.handled.map (fun h => (h.outcome, h.owner)) ++ [(outcome, owner)] := by
  simp [Service.taken, Service.handle]

theorem applied_handled (step : DeliveryStep) (owner : Option ℕ) :
    (s.applyOwnedDeliveryStep step owner).handled = s.handled := by
  cases step with
  | delivered => exact modifyRun_handled ..
  | reconciliationRequired error => exact (Drains.stopForReconciliation s error).handled
  | unpersisted error =>
    rw [unpersisted_eq]
    exact modifyRun_handled ..
  | fenced signal => exact (Drains.drain _ _).handled

theorem taken_attempt {p : Pending} (hgate : s.gate = .delivering p) (fates : Fates) :
    (s.attempt R p fates).2.taken = s.taken := by
  have hwritten : (s.write R p.op fates).2.handled = s.handled :=
    (Drains.write s p.op fates).handled
  rw [taken_of_delivering hgate, ← hwritten]
  unfold Service.attempt
  dsimp only
  split
  · rfl
  all_goals
    split
    · rw [taken_handle, applied_handled]
    · rw [taken_handle, applied_handled]
    · exact taken_handle ..

theorem taken_receive (hgate : s.gate = .free) (hpoisoned : s.app.projectionState.poisoned = false)
    (hopen : Admitting s.app) (outcome : JobOutcome) (timestamp : String) :
    (s.receive outcome timestamp).taken =
      s.taken ++ [(outcome, (s.ownerOf outcome).getD none)] := by
  have hdrains := Drains.lockAdmission s
  have happ : s.lockAdmission.app = s.app := Service.lockAdmission_app
  rw [taken_of_free hgate, ← hdrains.ownerOf outcome, ← hdrains.handled]
  unfold Service.receive
  dsimp only
  generalize s.lockAdmission = s' at happ
  rw [Admitting] at hopen
  rw [happ, hopen, hpoisoned]
  simp only [Option.isSome_none, Bool.false_eq_true, if_false]
  split
  · next hother => rw [taken_handle, hother, Option.getD_none]
  · next owner howner =>
    rw [howner, Option.getD_some]
    split
    · exact taken_handle ..
    · split
      · rfl
      · split
        · rfl
        · rw [taken_handle, applied_handled]

/-- Every outcome that the loop takes is settled once, and no other one is. -/
theorem taken_step (s : Service) (i : ServiceInput)
    (hpoisoned : s.app.projectionState.poisoned = false) :
    ((machine R).step s i).2.taken = s.taken ++ (s.takes i).toList := by
  cases i with
  | publish id expected =>
    simp only [machine, Service.takes, Option.toList_none, List.append_nil]
    split
    · next hgate =>
      rw [taken_of_free hgate]
      unfold Service.publish
      split
      · next h =>
        split at h
        · cases h
          exact taken_of_free hgate
        · cases h
      · next h =>
        split at h
        · cases h
        · cases h
          exact List.append_nil _
    · rfl
  | published accepted =>
    simp only [machine, Service.takes, Option.toList_none, List.append_nil]
    split
    · next run hgate =>
      have hfree : Service.taken (Service.modifyRun { s with gate := .free } (some run) fun r =>
          { r with tracker := r.tracker - (r.total - accepted), accepted := accepted }) =
            s.taken := by
        rw [Service.taken, Service.taken, hgate]
        rfl
      unfold Service.published
      dsimp only
      split
      · rw [(Drains.drain _ _).taken, (Drains.lockAdmission _).taken, hfree]
      · rw [(Drains.lockAdmission _).taken, hfree]
    · rfl
  | receive outcome timestamp =>
    cases hgate : s.gate with
    | free =>
      simp only [machine, Service.takes, hgate]
      cases hstopped : s.loopStopped with
      | true => exact (List.append_nil _).symm
      | false =>
        cases hslot : lockWriteAdmission s.app with
        | none => exact taken_receive hgate hpoisoned hslot outcome timestamp
        | some error =>
          have hclosed : ¬ Admitting s.app := by
            rw [Admitting, hslot]
            exact Option.some_ne_none error
          rw [if_neg Bool.false_ne_true, receive_of_closed hclosed]
          simp only [Bool.false_or, Option.isSome_some, if_true, Option.toList_none,
            List.append_nil]
          exact (Drains.lockAdmission s).taken
    | publishing run =>
      simp only [machine, Service.takes, hgate, Option.toList_none, List.append_nil]
    | delivering p =>
      simp only [machine, Service.takes, hgate, Option.toList_none, List.append_nil]
  | attempt fates =>
    simp only [machine, Service.takes, Option.toList_none, List.append_nil]
    split
    · next hgate => exact taken_attempt hgate fates
    · rfl
  | retire run =>
    simp only [machine, Service.takes, Option.toList_none, List.append_nil]
    split
    · unfold Service.retireBatch
      split <;> rfl
    · rfl
  | conclude run =>
    simp only [Service.takes, Option.toList_none, List.append_nil]
    exact (Drains.lockAdmission s).taken
  | write op fates =>
    simp only [Service.takes, Option.toList_none, List.append_nil]
    exact (Drains.write s op fates).taken
  | stop error =>
    simp only [Service.takes, Option.toList_none, List.append_nil]
    exact (Drains.stopForReconciliation s error).taken

/-! ## Reports -/

/-- What a retired run reports of its batch, given its first failure. -/
def ScheduledRun.verdict (r : ScheduledRun) (failure : Option PersistenceError) :
    RetireOutcome → Except AppError Bool
  | .notOwner => .error .runOwnershipLost
  | .retired (some signal) => .error (.persistence signal.error)
  | .retired none =>
    if r.accepted = 0 ∧ r.total ≠ 0 then .ok false
    else
      match failure with
      | some error => .error (.persistence error)
      | none => .ok true

/-- Only a closed slot comes before the verdict. -/
theorem outcome_eq (r : ScheduledRun) (admission : Option PersistenceError)
    (retired : RetireOutcome) :
    r.outcome admission retired = r.verdict r.failure retired ∨
      ∃ error, admission = some error ∧
        r.outcome admission retired =
          .error (.persistence (.indeterminate (.persistence error))) := by
  unfold ScheduledRun.outcome
  by_cases hempty : r.accepted = 0 ∧ r.total ≠ 0
  · left
    rw [if_pos hempty]
    rcases retired with ⟨_ | signal⟩ | _
    · simp only [ScheduledRun.verdict, if_pos hempty]
      rfl
    · rfl
    · rfl
  · rw [if_neg hempty]
    cases admission with
    | some error => exact .inr ⟨error, rfl, rfl⟩
    | none =>
      left
      rcases retired with ⟨_ | signal⟩ | _
      · simp only [ScheduledRun.verdict, if_neg hempty]
        cases r.failure <;> rfl
      · rfl
      · rfl

/-- What holds of a run, whether it is active, has retired or was overtaken. -/
structure Accounted (s : Service) (i : ℕ) (run : ScheduledRun) : Prop where
  slots : run.drained = true ∧ run.tracker = 0 ∨
    run.drained = false ∧ run.tracker = run.slots - (s.owned i).length
  owned : ∀ h ∈ s.owned i, h.outcome.source = .scheduledBatch ∧ h.outcome.correlation = some run.id
  stopped : s.scheduledRun = some i → s.loopStopped = true → s.gate ≠ .publishing i →
    run.drained = true
  result : ∀ r, run.result = some r → ∃ retired, run.retired = some retired ∧
    (r = run.verdict (firstUnpersisted (s.owned i)) retired ∨
      ¬ Admitting s.app ∧ ∃ error,
        r = .error (.persistence (.indeterminate (.persistence error))))

theorem Books.accounted (hs : Books s) (hc : Covered s) {i : ℕ} {run : ScheduledRun}
    (hrun : s.runs[i]? = some run) : Accounted s i run := by
  obtain ⟨hdrained, hslots, hfailure, howned, hresult⟩ := hs.balanced i run hrun
  constructor
  · cases hd : run.drained with
    | true => exact .inl ⟨rfl, hdrained hd⟩
    | false => exact .inr ⟨rfl, hslots hd⟩
  · exact howned
  · intro hactive hstopped hgate
    have hidle : ∀ j, s.gate ≠ .publishing j := by
      intro j hj
      obtain rfl : j = i := Option.some.inj ((hs.publishing j hj).1.symm.trans hactive)
      exact hgate hj
    exact hc.closed (hc.stopped hstopped) hidle i run hactive hrun
  · intro r hr
    obtain ⟨admission, retired, hretired, hout, hclosed⟩ := hresult r hr
    refine ⟨retired, hretired, ?_⟩
    rw [← hfailure, hout]
    rcases outcome_eq run admission retired with hverdict | ⟨error, hsome, herror⟩
    · exact .inl hverdict
    · exact .inr ⟨hclosed (by rw [hsome]; rfl), error, herror⟩

/-! ## Runs of the service -/

theorem Ordered.owner_of_scheduled (hs : Ordered s) {outcome : JobOutcome} {owner : Option ℕ}
    (h : s.ownerOf outcome = some owner) (hsource : outcome.source = .scheduledBatch) :
    ∃ i run, owner = some i ∧ s.scheduledRun = some i ∧ s.runs[i]? = some run ∧
      outcome.correlation = some run.id := by
  cases owner with
  | none =>
    simp only [Service.ownerOf, hsource] at h
    split at h
    · split at h <;> cases h
    · cases h
  | some i =>
    obtain ⟨hactive, -, run, hrun, hcorrelation⟩ := hs.owns h i rfl
    exact ⟨i, run, rfl, hactive, hrun, hcorrelation⟩

theorem Books.init {app : AppState} : Books (.init app) := by
  constructor
  · constructor
    · rfl
    · rintro i ⟨⟩
    · rintro i ⟨⟩
    · rintro p ⟨⟩
    · intro h hmem
      cases hmem
    · intro hsome
      cases hsome
  · intro i run hrun
    cases hrun

theorem Covered.init {app : AppState} (hpoisoned : app.projectionState.poisoned = false) :
    Covered (.init app) := by
  refine ⟨hpoisoned, ?_, ?_⟩
  · rintro - - i run ⟨⟩
  · intro hstopped
    cases hstopped

theorem books_after (R : Runtime) {app : AppState}
    (hpoisoned : app.projectionState.poisoned = false)
    (is : List ServiceInput) :
    Books ((machine R).after (.init app) is) ∧ Covered ((machine R).after (.init app) is) := by
  refine Machine.invariant (I := fun s => Books s ∧ Covered s) ?_ ⟨Books.init, .init hpoisoned⟩ is
  rintro s i ⟨hs, hc⟩
  exact ⟨books_step s i hs hc.unpoisoned, covered_step s i hs hc⟩

theorem fencedBy_after {signal : FenceSignal} {i : ℕ} (hs : Books s) (hc : Covered s)
    (hfenced : s.FencedBy signal i) (is : List ServiceInput)
    (his : ∀ input ∈ is, ¬ input.StartsRun) :
    ((machine R).after s is).FencedBy signal i := by
  have hrun := Machine.invariant_along (M := machine R)
    (I := fun s => (Books s ∧ Covered s) ∧ s.FencedBy signal i) (G := fun _ i => ¬ i.StartsRun) ?_
    ⟨⟨hs, hc⟩, hfenced⟩ (Machine.along_of_mem his s)
  · exact hrun.2
  · rintro s input ⟨⟨hs, hc⟩, hfenced⟩ hinput
    exact ⟨⟨books_step s input hs hc.unpoisoned, covered_step s input hs hc⟩,
      fencedBy_step s input hs.toOrdered hfenced hinput⟩

/--
Over every interleaving only outcomes of the active run are written for it while no fence is
latched, each of them is settled with its run once, a fence stays until the run retires with it
or another publication takes it, and a run reports its first unpersisted error.
-/
theorem run_ownership (R : Runtime) (app : AppState)
    (hunpoisoned : app.projectionState.poisoned = false) (is : List ServiceInput) :
    let s := (machine R).after (.init app) is
    (∀ fates write, s.writeOf (.attempt fates) = some write → ∃ p, s.gate = .delivering p ∧
      write = (p.op, fates) ∧ s.runFence = none ∧
      (p.outcome.source = .scheduledBatch → ∃ i run, p.owner = some i ∧ s.scheduledRun = some i ∧
        s.runs[i]? = some run ∧ p.outcome.correlation = some run.id)) ∧
    (∀ input, ((machine R).step s input).2.taken = s.taken ++ (s.takes input).toList) ∧
    (∀ i run, s.runs[i]? = some run → Accounted s i run) ∧
    (∀ signal i, s.runFence = some signal → s.scheduledRun = some i → ∀ js : List ServiceInput,
      (∀ input ∈ js, ¬ input.StartsRun) → ((machine R).after s js).FencedBy signal i) ∧
    ∀ signal id expected, s.runFence = some signal → s.gate = .free →
      (machine R).step s (.publish id expected) =
        (.fenced signal, { s with runFence := none }) := by
  intro s
  obtain ⟨hs, hc⟩ := books_after R hunpoisoned is
  refine ⟨?_, ?_, ?_, ?_, ?_⟩
  · intro fates write hwrite
    simp only [Service.writeOf] at hwrite
    split at hwrite
    · next p hgate =>
      obtain rfl := Option.some.inj hwrite
      obtain ⟨hfence, howner⟩ := hs.delivering p hgate
      exact ⟨p, hgate, rfl, hfence, hs.owner_of_scheduled howner⟩
    · cases hwrite
  · exact fun input => taken_step s input hc.unpoisoned
  · exact fun i run hrun => hs.accounted hc hrun
  · exact fun signal i hfence hactive js hjs => fencedBy_after hs hc (.inl ⟨hfence, hactive⟩) js hjs
  · intro signal id expected hfence hgate
    simp only [machine, hgate, Service.publish, hfence]

/-! ## Examples of runs -/

section Samples

open Publication

def sampleOutcome (domainKey : String) (run : RunId) : JobOutcome :=
  ⟨domainKey, .scheduledBatch, some run, .ok (sampleEvidence domainKey true), 0⟩

/-- The loop takes an outcome and tries once to record it. -/
def sampleDelivery (domainKey : String) (run : RunId) (fate : Fate) : List ServiceInput :=
  [.receive (sampleOutcome domainKey run) sampleTimestamp, .attempt ⟨fate, fate⟩]

/-- Another writer appended before. -/
def sampleConflict : Fate :=
  .returns ⟨.ok 1, .ok (), .ok .undefined, .error ⟨.concurrencyConflict, ""⟩, .ok ()⟩

def sampleService (is : List ServiceInput) : Service :=
  (machine sampleRuntime).after (.init .empty) is

/-- What a run reports, its error by category. -/
def sampleReport (s : Service) (run : ℕ) : Option (Except (Option WritePolicyCategory) Bool) :=
  (s.runs[run]?.bind ScheduledRun.result).map fun report =>
    report.mapError fun
      | .persistence error => some (.classify error)
      | .runOwnershipLost => none

/-- An outcome that cannot be recorded comes before the fence. -/
def sampleUnpersisted : List ServiceInput :=
  [.publish 7 2, .published 2] ++ sampleDelivery "" 7 (landingOn .undefined)
    ++ sampleDelivery "key" 7 sampleConflict ++ [.retire 0, .conclude 0]

def sampleFenced : List ServiceInput :=
  [.publish 7 2, .published 2] ++ sampleDelivery "key" 7 sampleConflict

/-- Another publication takes the fence of a run that is still active. -/
def sampleFenceTaken : List ServiceInput :=
  sampleFenced ++ [.publish 8 1] ++ sampleDelivery "other" 7 (landingOn .undefined)
    ++ [.retire 0, .conclude 0]

def sampleOverrun : List ServiceInput :=
  [.publish 7 1, .published 1, .publish 8 1, .published 1]
    ++ sampleDelivery "key" 7 (landingOn .undefined)

/--
A fenced run does not report its unpersisted error; a run whose fence was taken has later
outcomes written and ends well; outcomes of a run that was overtaken retire no slot.
-/
theorem run_ownership_limits :
    (let s := sampleService sampleUnpersisted
     (firstUnpersisted (s.owned 0)).map WritePolicyCategory.classify = some .unrecoverable ∧
        sampleReport s 0 = some (.error (some .conflict))) ∧
    (let s := sampleService sampleFenceTaken
     s.handled.map (fun h => h.owner) = [some 0, some 0] ∧
        "other" ∈ s.app.projectionState.value.repositories ∧ sampleReport s 0 = some (.ok true)) ∧
    (let s := sampleService sampleOverrun
     s.handled.map (fun h => (h.outcome.correlation, h.owner)) = [(some 7, none)] ∧
        s.runs.map (fun run => (run.tracker, run.drained)) = [(1, false), (1, false)]) := by
  refine ⟨⟨?_, ?_⟩, ⟨?_, ?_, ?_⟩, ⟨?_, ?_⟩⟩
  · decide +kernel
  · decide +kernel
  · decide +kernel
  · decide +kernel
  · decide +kernel
  · decide +kernel
  · decide +kernel

theorem run_ownership_fenced : ∃ signal,
    ((machine sampleRuntime).after (sampleService sampleFenced) [.retire 0]).FencedBy signal 0 := by
  obtain ⟨-, -, -, hfenced, -⟩ := run_ownership sampleRuntime .empty rfl sampleFenced
  have hlatched : (sampleService sampleFenced).runFence.isSome = true := by
    decide +kernel
  have hactive : (sampleService sampleFenced).scheduledRun = some 0 := by
    decide +kernel
  obtain ⟨signal, hsignal⟩ := Option.isSome_iff_exists.mp hlatched
  refine ⟨signal, hfenced signal 0 hsignal hactive [.retire 0] ?_⟩
  rintro input hmem hstarts
  rw [List.mem_singleton] at hmem
  subst hmem
  exact hstarts

end Samples

end GhReport.Delivery
