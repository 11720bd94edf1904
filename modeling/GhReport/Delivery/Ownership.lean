import GhReport.Delivery.Accounts
import GhReport.Publication.Continuity

/-! # Ownership of runs

Over every interleaving of publications, deliveries, retirements and other writes,
only outcomes of the active run are written for a run, its slots are accounted
for, and a fence is kept until the run retires or another one takes it.
-/

namespace GhReport.Delivery

open Domain Projection App

variable {R : Runtime} {s s' : Service}

/-! ## Cover -/

/-- A closed slot covers the active run, and only a closed slot stops the loop. -/
structure Covered (s : Service) : Prop where
  unpoisoned : s.app.projectionState.poisoned = false
  closed : ¬ Admitting s.app → (∀ i, s.gate ≠ .publishing i) → s.CoveredBy s.scheduledRun
  stopped : s.loopStopped = true → ¬ Admitting s.app

theorem books_step (s : Service) (i : ServiceInput) (hs : Books s)
    (hunpoisoned : s.app.projectionState.poisoned = false) : Books ((machine R).step s i).2 := by
  cases i with
  | publish id expected =>
    simp only [machine]
    split
    · next hgate =>
      have hpublished := hs.publish hgate id expected
      split
      · next signal s' h =>
        rw [h] at hpublished
        exact hpublished
      · next s' h =>
        rw [h] at hpublished
        exact hpublished
    · exact hs
  | published accepted =>
    simp only [machine]
    split
    · next hgate => exact hs.published hgate accepted
    · exact hs
  | receive outcome timestamp =>
    simp only [machine]
    split
    · split
      · exact hs
      · exact hs.receive hunpoisoned outcome timestamp
    · exact hs
  | attempt fates =>
    simp only [machine]
    split
    · next hgate => exact hs.attempt hgate fates
    · exact hs
  | retire run =>
    simp only [machine]
    split
    · next hgate hopen => exact hs.retireBatch hgate hopen
    · exact hs
  | conclude run => exact hs.conclude run
  | write op fates => exact hs.drains (Drains.write s op fates)
  | stop error => exact hs.drains (Drains.stopForReconciliation s error)

theorem CoveredBy.modify {owner : Option ℕ} (h : s.CoveredBy owner) (run : Option ℕ)
    {f : ScheduledRun → ScheduledRun} (hf : ∀ r, r.drained = true → (f r).drained = true) :
    (s.modifyRun run f).CoveredBy owner := by
  intro i r' howner hr'
  cases run with
  | none => exact h i r' howner hr'
  | some j =>
    have hmodify : (s.runs.modify j f)[i]? = some r' := hr'
    rw [List.getElem?_modify] at hmodify
    obtain ⟨r, hr, rfl⟩ := Option.map_eq_some_iff.mp hmodify
    have hdrained := h i r howner hr
    split
    · exact hf r hdrained
    · exact hdrained

/-- A write that finds the slot closed, or closes it, leaves the active run covered. -/
theorem Covered.write (hc : Covered s) (hgate : ∀ i, s.gate ≠ .publishing i) {op : WriteOp}
    {fates : Fates} (hclosed : ¬ Admitting (s.write R op fates).2.app) :
    (s.write R op fates).2.CoveredBy s.scheduledRun := by
  by_cases hs : Admitting s.app
  · rw [Service.write_app] at hclosed
    have hlatched : ((lockWriteAdmission s.app).isNone &&
        (lockWriteAdmission ((App.machine R).step s.app (op, fates)).2).isSome) = true := by
      rw [Admitting] at hs hclosed
      rw [hs, Option.isSome_iff_ne_none.mpr hclosed]
      rfl
    unfold Service.write
    dsimp only
    split
    · exact (Drains.drain _ _).coveredBy (coveredBy_drain s.scheduledRun)
    · rw [if_pos hlatched]
      exact coveredBy_drain s.scheduledRun
  · exact (Drains.write s op fates).coveredBy (hc.closed hs hgate)

theorem applied_coveredBy {step : DeliveryStep} {owner : Option ℕ}
    (h : ¬ Admitting s.app → s.CoveredBy s.scheduledRun)
    (hclosed : ¬ Admitting (s.applyOwnedDeliveryStep step owner).app) :
    (s.applyOwnedDeliveryStep step owner).CoveredBy s.scheduledRun := by
  cases step with
  | delivered =>
    simp only [Service.applyOwnedDeliveryStep, Service.retireSlots_app] at hclosed
    exact CoveredBy.modify (h hclosed) owner fun _ => id
  | reconciliationRequired error => exact stopForReconciliation_coveredBy error
  | unpersisted error =>
    rw [unpersisted_eq] at hclosed ⊢
    rw [Service.modifyRun_app] at hclosed
    exact CoveredBy.modify (h hclosed) owner fun _ => id
  | fenced signal =>
    simp only [Service.applyOwnedDeliveryStep, Service.fenceActiveRun, Service.drain_app] at hclosed
    exact (Drains.drain _ _).coveredBy (h hclosed)

section Applied

variable (step : DeliveryStep) (owner : Option ℕ)

theorem applied_scheduledRun :
    (s.applyOwnedDeliveryStep step owner).scheduledRun = s.scheduledRun := by
  cases step with
  | delivered => simp [Service.applyOwnedDeliveryStep, Service.retireSlots]
  | reconciliationRequired error => exact (Drains.stopForReconciliation s error).scheduledRun
  | unpersisted error => rw [unpersisted_eq, modifyRun_scheduledRun]
  | fenced signal => simp [Service.applyOwnedDeliveryStep, Service.fenceActiveRun, Service.drain]

theorem applied_loopStopped :
    (s.applyOwnedDeliveryStep step owner).loopStopped = s.loopStopped := by
  cases step with
  | delivered => cases owner <;> rfl
  | reconciliationRequired error => exact (Drains.stopForReconciliation s error).loopStopped
  | unpersisted error => cases owner <;> rfl
  | fenced signal => exact (Drains.drain _ _).loopStopped

theorem applied_closed (h : ¬ Admitting s.app) :
    ¬ Admitting (s.applyOwnedDeliveryStep step owner).app := by
  cases step with
  | delivered => simpa [Service.applyOwnedDeliveryStep] using h
  | reconciliationRequired error => exact (Drains.stopForReconciliation s error).closed h
  | unpersisted error => simpa [Service.applyOwnedDeliveryStep] using h
  | fenced signal => simpa [Service.applyOwnedDeliveryStep, Service.fenceActiveRun] using h

end Applied

theorem closed_of_panic {op : WriteOp} {fates : Fates}
    (h : (s.write R op fates).1 = .error .panic) : ¬ Admitting (s.write R op fates).2.app := by
  rw [Service.write_answer] at h
  rw [Service.write_app]
  have hw := step_wrote R fates op s.app
  rw [h] at hw
  generalize ((App.machine R).step s.app (op, fates)).2 = app at hw
  cases hw with
  | lost hs hstop hclosed hprojection => exact hclosed

theorem Covered.applied (hc : Covered s)
    (hcovered : ¬ Admitting s.app → s.CoveredBy s.scheduledRun) (outcome : JobOutcome)
    (owner : Option ℕ) (step : DeliveryStep) :
    Covered ((s.applyOwnedDeliveryStep step owner).handle outcome owner (some step)) := by
  constructor
  · simpa using hc.unpoisoned
  · intro hclosed _
    have hactive := applied_coveredBy hcovered hclosed
    rw [← applied_scheduledRun step owner] at hactive
    exact hactive
  · intro hstopped
    have hstopped : s.loopStopped = true := by
      rw [← applied_loopStopped step owner]
      exact hstopped
    exact applied_closed step owner (hc.stopped hstopped)

theorem Covered.attempt (hc : Covered s) {p : Pending} (hgate : s.gate = .delivering p)
    (fates : Fates) : Covered (s.attempt R p fates).2 := by
  have hbusy : ∀ i, s.gate ≠ .publishing i := by
    intro i hi
    rw [hgate] at hi
    cases hi
  have hdrains : Drains s (s.write R p.op fates).2 := Drains.write s p.op fates
  have hwritten : ¬ Admitting (s.write R p.op fates).2.app →
      (s.write R p.op fates).2.CoveredBy (s.write R p.op fates).2.scheduledRun := by
    intro hclosed
    rw [hdrains.scheduledRun]
    exact hc.write hbusy hclosed
  have hafter : Covered (s.write R p.op fates).2 := by
    refine ⟨?_, fun hclosed _ => hwritten hclosed, fun hstopped => ?_⟩
    · rw [Service.write_app, poisoned_step]
      exact hc.unpoisoned
    · rw [hdrains.loopStopped] at hstopped
      exact hdrains.closed (hc.stopped hstopped)
  unfold Service.attempt
  dsimp only
  split
  · exact ⟨hafter.unpoisoned, fun hclosed _ => hwritten hclosed, hafter.stopped⟩
  all_goals
    split
    · exact hafter.applied hwritten p.outcome p.owner .delivered
    · next error hanswer =>
        exact hafter.applied hwritten p.outcome p.owner (classifyPersistFailure error)
    · next hanswer =>
        exact ⟨hafter.unpoisoned, fun hclosed _ => hwritten hclosed,
          fun _ => closed_of_panic hanswer⟩

/-- An open slot lets the loop go on. -/
theorem receive_loopStopped (hpoisoned : s.app.projectionState.poisoned = false)
    (hopen : Admitting s.app) (hrunning : s.loopStopped = false) (outcome : JobOutcome)
    (timestamp : String) : (s.receive outcome timestamp).loopStopped = false := by
  have hlocked : s.lockAdmission.loopStopped = false :=
    (Drains.lockAdmission s).loopStopped.trans hrunning
  have happ : s.lockAdmission.app = s.app := Service.lockAdmission_app
  unfold Service.receive
  dsimp only
  generalize s.lockAdmission = s' at hlocked happ
  rw [← happ] at hopen hpoisoned
  rw [Admitting] at hopen
  simp only [hopen, hpoisoned, Option.isSome_none, Bool.false_eq_true, if_false]
  split
  · exact hlocked
  · split
    · exact hlocked
    · split
      · exact hlocked
      · split
        · exact hlocked
        · exact (applied_loopStopped .delivered _).trans hlocked

/-- Behind a closed slot the loop stops without a look at the outcome. -/
theorem receive_of_closed (hclosed : ¬ Admitting s.app) (outcome : JobOutcome)
    (timestamp : String) :
    s.receive outcome timestamp = { s.lockAdmission with loopStopped := true } := by
  have hsome : (lockWriteAdmission s.lockAdmission.app).isSome = true := by
    rw [Service.lockAdmission_app]
    exact Option.isSome_iff_ne_none.mpr hclosed
  simp only [Service.receive, hsome, if_true]

/-- Behind a closed slot the loop stops; otherwise nothing that the cover is about moves. -/
theorem Covered.receive (hc : Covered s) (hgate : s.gate = .free) (outcome : JobOutcome)
    (timestamp : String) : Covered (s.receive outcome timestamp) := by
  have hfree : ∀ i, s.gate ≠ .publishing i := by
    intro i hi
    rw [hgate] at hi
    cases hi
  have hdrains := Drains.lockAdmission s
  by_cases hopen : Admitting s.app
  · have hrunning : s.loopStopped = false := by
      cases hstopped : s.loopStopped with
      | false => rfl
      | true => exact absurd hopen (hc.stopped hstopped)
    have hstopped := receive_loopStopped hc.unpoisoned hopen hrunning outcome timestamp
    refine ⟨?_, fun hclosed => ?_, fun hstop => ?_⟩
    · rw [Service.receive_app]
      exact hc.unpoisoned
    · rw [Service.receive_app] at hclosed
      exact absurd hopen hclosed
    · rw [hstopped] at hstop
      cases hstop
  · rw [receive_of_closed hopen]
    refine ⟨?_, fun _ _ => ?_, fun _ => hdrains.closed hopen⟩
    · rw [Service.lockAdmission_app]
      exact hc.unpoisoned
    · have hcovered := hdrains.coveredBy (hc.closed hopen hfree)
      rw [← hdrains.scheduledRun] at hcovered
      exact hcovered

theorem Covered.published (hc : Covered s) {run : ℕ} (hactive : s.scheduledRun = some run)
    (accepted : ℕ) : Covered (s.published run accepted) := by
  refine ⟨?_, fun hclosed _ => ?_, fun hstopped => ?_⟩
  · rw [Service.published_app]
    exact hc.unpoisoned
  · rw [Service.published_app] at hclosed
    have hsome : (lockWriteAdmission s.app).isSome = true := Option.isSome_iff_ne_none.mpr hclosed
    unfold Service.published
    simp only [Service.lockAdmission_app, Service.modifyRun_app, hsome, if_true]
    have hscheduled : (Service.drain (Service.lockAdmission ({ s with gate := .free }.modifyRun
        (some run) fun r =>
          { r with tracker := r.tracker - (r.total - accepted)
                   accepted := accepted })) (some run)).scheduledRun = some run := by
      rw [(Drains.drain _ _).scheduledRun, (Drains.lockAdmission _).scheduledRun]
      exact hactive
    rw [hscheduled]
    exact coveredBy_drain (some run)
  · rw [Service.published_app]
    refine hc.stopped ?_
    unfold Service.published at hstopped
    dsimp only at hstopped
    split at hstopped
    · rw [(Drains.drain _ _).loopStopped, (Drains.lockAdmission _).loopStopped] at hstopped
      exact hstopped
    · rw [(Drains.lockAdmission _).loopStopped] at hstopped
      exact hstopped

theorem Covered.retireBatch (hc : Covered s) (hgate : s.gate = .free) (run : ℕ) :
    Covered (s.retireBatch run) := by
  have hfree : ∀ i, s.gate ≠ .publishing i := by
    intro i hi
    rw [hgate] at hi
    cases hi
  unfold Service.retireBatch
  split
  · exact ⟨hc.unpoisoned, fun _ _ _ _ hnone => (nomatch hnone), hc.stopped⟩
  · exact ⟨hc.unpoisoned, fun hclosed _ => CoveredBy.modify (hc.closed hclosed hfree) (some run)
      fun _ => id, hc.stopped⟩

theorem covered_step (s : Service) (i : ServiceInput) (hs : Books s) (hc : Covered s) :
    Covered ((machine R).step s i).2 := by
  cases i with
  | publish id expected =>
    simp only [machine]
    split
    · next hgate =>
      have hfree : ∀ i, s.gate ≠ .publishing i := by
        intro i hi
        rw [hgate] at hi
        cases hi
      unfold Service.publish
      split
      · next h =>
        split at h
        · cases h
          exact ⟨hc.unpoisoned, fun hclosed _ => hc.closed hclosed hfree, hc.stopped⟩
        · cases h
      · next h =>
        split at h
        · cases h
        · cases h
          exact ⟨hc.unpoisoned, fun _ hgate => absurd rfl (hgate _), hc.stopped⟩
    · exact hc
  | published accepted =>
    simp only [machine]
    split
    · next run hgate => exact hc.published (hs.publishing run hgate).1 accepted
    · exact hc
  | receive outcome timestamp =>
    simp only [machine]
    split
    · next hgate =>
      split
      · exact hc
      · exact hc.receive hgate outcome timestamp
    · exact hc
  | attempt fates =>
    simp only [machine]
    split
    · next hgate => exact hc.attempt hgate fates
    · exact hc
  | retire run =>
    simp only [machine]
    split
    · next hgate _ => exact hc.retireBatch hgate run
    · exact hc
  | conclude run =>
    have hdrains := Drains.lockAdmission s
    refine ⟨?_, fun hclosed hgate => ?_, fun hstopped => ?_⟩
    · simpa [machine] using hc.unpoisoned
    · simp only [machine, Service.conclude_app] at hclosed
      have hgate' : ∀ i, s.gate ≠ .publishing i := by
        intro i
        rw [← hdrains.gate, ← modifyRun_gate]
        exact hgate i
      have hcovered := hdrains.coveredBy (hc.closed hclosed hgate')
      rw [← hdrains.scheduledRun, ← modifyRun_scheduledRun] at hcovered
      refine CoveredBy.modify hcovered (some run) ?_
      intro r hr
      split <;> exact hr
    · simp only [machine, Service.conclude, modifyRun_loopStopped, hdrains.loopStopped] at hstopped
      simpa [machine] using hc.stopped hstopped
  | write op fates =>
    have hdrains : Drains s (s.write R op fates).2 := Drains.write s op fates
    refine ⟨?_, fun hclosed hgate => ?_, fun hstopped => ?_⟩
    · simp only [machine, Service.write_app, poisoned_step]
      exact hc.unpoisoned
    · have hgate' : ∀ i, s.gate ≠ .publishing i := fun i => hdrains.gate ▸ hgate i
      have hcovered := hc.write hgate' hclosed
      rw [← hdrains.scheduledRun] at hcovered
      exact hcovered
    · exact hdrains.closed (hc.stopped (hdrains.loopStopped ▸ hstopped))
  | stop error =>
    have hdrains := Drains.stopForReconciliation s error
    refine ⟨?_, fun _ _ => ?_, fun hstopped => ?_⟩
    · simpa [machine] using hc.unpoisoned
    · have hcovered := stopForReconciliation_coveredBy (s := s) error
      rw [← hdrains.scheduledRun] at hcovered
      exact hcovered
    · exact hdrains.closed (hc.stopped (hdrains.loopStopped ▸ hstopped))

/-! ## Fences -/

/-- The run is active under this fence, or retired with it. -/
def Service.FencedBy (s : Service) (signal : FenceSignal) (i : ℕ) : Prop :=
  (s.runFence = some signal ∧ s.scheduledRun = some i) ∨
    ∃ run, s.runs[i]? = some run ∧ run.retired = some (.retired (some signal))

def ServiceInput.StartsRun : ServiceInput → Prop
  | .publish .. => True
  | _ => False

theorem Drains.fencedBy (h : Drains s s') {signal : FenceSignal} {i : ℕ}
    (hs : s.FencedBy signal i) : s'.FencedBy signal i := by
  rcases hs with ⟨hfence, hactive⟩ | ⟨run, hrun, hretired⟩
  · exact .inl ⟨h.runFence.trans hfence, h.scheduledRun.trans hactive⟩
  · right
    obtain ⟨run', hrun', hsame⟩ := h.retired hrun
    exact ⟨run', hrun', hsame.trans hretired⟩

/-- A change of one run keeps a fence, and a retirement that it does not undo. -/
theorem FencedBy.modify {signal : FenceSignal} {i : ℕ} (h : s.FencedBy signal i) (run : Option ℕ)
    {f : ScheduledRun → ScheduledRun} (hf : ∀ r, r.retired.isSome → (f r).retired = r.retired) :
    (s.modifyRun run f).FencedBy signal i := by
  rcases h with ⟨hfence, hactive⟩ | ⟨r, hr, hretired⟩
  · left
    rw [modifyRun_runFence, modifyRun_scheduledRun]
    exact ⟨hfence, hactive⟩
  · right
    cases run with
    | none => exact ⟨r, hr, hretired⟩
    | some j =>
      have hmodify : (s.modifyRun (some j) f).runs[i]? = some (if j = i then f r else r) := by
        change (s.runs.modify j f)[i]? = _
        rw [List.getElem?_modify, hr]
        rfl
      refine ⟨_, hmodify, ?_⟩
      split
      · rw [hf r (by rw [hretired]; rfl), hretired]
      · exact hretired

theorem FencedBy.applied {signal : FenceSignal} {i : ℕ} (h : s.FencedBy signal i)
    (step : DeliveryStep) (owner : Option ℕ) :
    (s.applyOwnedDeliveryStep step owner).FencedBy signal i := by
  cases step with
  | delivered =>
    rw [Service.applyOwnedDeliveryStep, retireSlots_eq]
    exact FencedBy.modify h owner fun _ _ => rfl
  | reconciliationRequired error => exact (Drains.stopForReconciliation s error).fencedBy h
  | unpersisted error =>
    rw [unpersisted_eq]
    exact FencedBy.modify h owner fun _ _ => rfl
  | fenced other =>
    refine (Drains.drain _ _).fencedBy ?_
    rcases h with ⟨hfence, hactive⟩ | hretired
    · refine .inl ⟨?_, hactive⟩
      simp only [hfence, Option.getD_some]
    · exact .inr hretired

theorem FencedBy.receive {signal : FenceSignal} {i : ℕ} (h : s.FencedBy signal i)
    (outcome : JobOutcome) (timestamp : String) :
    (s.receive outcome timestamp).FencedBy signal i := by
  have hlocked := (Drains.lockAdmission s).fencedBy h
  unfold Service.receive
  dsimp only
  generalize s.lockAdmission = s at hlocked
  split
  · exact hlocked
  · split
    · exact hlocked
    · split
      · exact hlocked
      · split
        · exact hlocked
        · split
          · exact hlocked
          · split
            · exact hlocked
            · exact FencedBy.applied hlocked .delivered _

theorem FencedBy.attempt {signal : FenceSignal} {i : ℕ} (h : s.FencedBy signal i) (p : Pending)
    (fates : Fates) : (s.attempt R p fates).2.FencedBy signal i := by
  have hwritten := (Drains.write (R := R) s p.op fates).fencedBy h
  unfold Service.attempt
  dsimp only
  split
  · exact hwritten
  all_goals
    split
    · exact FencedBy.applied hwritten .delivered p.owner
    · exact FencedBy.applied hwritten _ p.owner
    · exact hwritten

theorem FencedBy.retireBatch {signal : FenceSignal} {i run : ℕ} (h : s.FencedBy signal i)
    (hs : Ordered s) (hopen : s.runs[run]?.bind ScheduledRun.retired = none) :
    (s.retireBatch run).FencedBy signal i := by
  have hother : ∀ r, s.runs[i]? = some r → r.retired.isSome → run ≠ i := by
    rintro r hr hretired rfl
    rw [hr, Option.bind_some] at hopen
    rw [hopen] at hretired
    cases hretired
  unfold Service.retireBatch
  split
  · next hactive =>
    right
    rcases h with ⟨hfence, hscheduled⟩ | ⟨r, hr, hretired⟩
    · obtain rfl : run = i := Option.some.inj (hactive.symm.trans hscheduled)
      obtain ⟨r, hr, -⟩ := hs.active run hactive
      refine ⟨{ r with retired := some (.retired s.runFence) }, ?_, by rw [hfence]⟩
      simp only [Service.modifyRun, List.getElem?_modify_eq, hr]
      rfl
    · refine ⟨r, ?_, hretired⟩
      have hne := hother r hr (by rw [hretired]; rfl)
      change (s.runs.modify run _)[i]? = _
      rw [List.getElem?_modify, hr]
      simp only [if_neg hne, Option.map_eq_map, Option.map_some]
  · next hinactive =>
    rcases h with ⟨hfence, hscheduled⟩ | ⟨r, hr, hretired⟩
    · exact .inl ⟨hfence, hscheduled⟩
    · right
      refine ⟨r, ?_, hretired⟩
      have hne := hother r hr (by rw [hretired]; rfl)
      change (s.runs.modify run _)[i]? = _
      rw [List.getElem?_modify, hr]
      simp only [if_neg hne, Option.map_eq_map, Option.map_some]

theorem fencedBy_step {signal : FenceSignal} {i : ℕ} (s : Service) (input : ServiceInput)
    (hs : Ordered s) (h : s.FencedBy signal i) (hinput : ¬ input.StartsRun) :
    ((machine R).step s input).2.FencedBy signal i := by
  cases input with
  | publish id expected => exact absurd trivial hinput
  | published accepted =>
    simp only [machine]
    split
    · next run hgate =>
      have hfree : ({ s with gate := .free } : Service).FencedBy signal i := h
      have hlocked := (Drains.lockAdmission _).fencedBy (FencedBy.modify hfree (some run)
        (f := fun r => { r with tracker := r.tracker - (r.total - accepted), accepted := accepted })
        fun _ _ => rfl)
      unfold Service.published
      dsimp only
      split
      · exact (Drains.drain _ _).fencedBy hlocked
      · exact hlocked
    · exact h
  | receive outcome timestamp =>
    simp only [machine]
    split
    · split
      · exact h
      · exact FencedBy.receive h outcome timestamp
    · exact h
  | attempt fates =>
    simp only [machine]
    split
    · exact FencedBy.attempt h _ fates
    · exact h
  | retire run =>
    simp only [machine]
    split
    · next hopen => exact FencedBy.retireBatch h hs hopen
    · exact h
  | conclude run =>
    refine FencedBy.modify ((Drains.lockAdmission s).fencedBy h) (some run) fun r _ => ?_
    split <;> rfl
  | write op fates => exact (Drains.write s op fates).fencedBy h
  | stop error => exact (Drains.stopForReconciliation s error).fencedBy h

end GhReport.Delivery
