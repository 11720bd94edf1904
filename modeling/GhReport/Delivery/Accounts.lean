import GhReport.Delivery.Service

/-! # The accounts of runs

Every run has an account: the slots of its tracker against the outcomes that the
loop handled for it, and its failure against the first of them that was not
persisted. A drain covers all slots that are left.
-/

namespace GhReport.Delivery

open Domain Projection App

variable {R : Runtime} {s s' : Service}

/-! ## Accounts -/

def ScheduledRun.drain (r : ScheduledRun) : ScheduledRun := { r with tracker := 0, drained := true }

/-- The outcomes that the loop handled for a run. -/
def Service.owned (s : Service) (run : ℕ) : List Handled :=
  s.handled.filter fun h => h.owner = some run

def Handled.unpersisted (h : Handled) : Option PersistenceError :=
  match h.step with
  | some (.unpersisted error) => some error
  | _ => none

def firstUnpersisted (handled : List Handled) : Option PersistenceError :=
  handled.findSome? Handled.unpersisted

/-- How many jobs of the run have a slot. -/
def ScheduledRun.slots (r : ScheduledRun) : ℕ := r.total - (r.total - r.accepted)

/-- The account of a run: what its tracker, its failure and its result amount to. -/
structure Balanced (s : Service) (i : ℕ) (run : ScheduledRun) : Prop where
  drained : run.drained = true → run.tracker = 0
  slots : run.drained = false → run.tracker = run.slots - (s.owned i).length
  failure : run.failure = firstUnpersisted (s.owned i)
  owned : ∀ h ∈ s.owned i, h.outcome.source = .scheduledBatch ∧ h.outcome.correlation = some run.id
  result : ∀ r, run.result = some r → ∃ admission retired, run.retired = some retired ∧
    r = run.outcome admission retired ∧ (admission.isSome → ¬ Admitting s.app)

/-- What holds of the shared state, whoever has the gate. -/
structure Ordered (s : Service) : Prop where
  batch : s.batchTracker = s.scheduledRun
  active : ∀ i, s.scheduledRun = some i → ∃ run, s.runs[i]? = some run ∧ run.retired = none
  publishing : ∀ i, s.gate = .publishing i → s.scheduledRun = some i ∧ s.owned i = [] ∧
    ∀ run, s.runs[i]? = some run → run.accepted = run.total
  delivering : ∀ p, s.gate = .delivering p → s.runFence = none ∧ s.ownerOf p.outcome = some p.owner
  owned : ∀ h ∈ s.handled, ∀ i, h.owner = some i → i < s.runs.length
  fenced : s.runFence.isSome → ∀ i run, s.scheduledRun = some i → s.runs[i]? = some run →
    run.drained = true

structure Books (s : Service) : Prop extends Ordered s where
  balanced : ∀ i run, s.runs[i]? = some run → Balanced s i run

/-! ## Drains -/

/-- Only the state behind the slot moved, which stays closed, and trackers were drained. -/
structure Drains (s s' : Service) : Prop where
  gate : s'.gate = s.gate
  scheduledRun : s'.scheduledRun = s.scheduledRun
  batchTracker : s'.batchTracker = s.batchTracker
  runFence : s'.runFence = s.runFence
  handled : s'.handled = s.handled
  loopStopped : s'.loopStopped = s.loopStopped
  closed : ¬ Admitting s.app → ¬ Admitting s'.app
  length : s'.runs.length = s.runs.length
  runs : ∀ (i : ℕ) run', s'.runs[i]? = some run' →
    ∃ run, s.runs[i]? = some run ∧ (run' = run ∨ run' = run.drain)

namespace Drains

theorem refl (s : Service) : Drains s s :=
  ⟨rfl, rfl, rfl, rfl, rfl, rfl, id, rfl, fun _ run h => ⟨run, h, .inl rfl⟩⟩

theorem trans {s'' : Service} (h : Drains s s') (h' : Drains s' s'') : Drains s s'' := by
  refine ⟨h'.gate.trans h.gate, h'.scheduledRun.trans h.scheduledRun,
    h'.batchTracker.trans h.batchTracker, h'.runFence.trans h.runFence,
    h'.handled.trans h.handled, h'.loopStopped.trans h.loopStopped, h'.closed ∘ h.closed,
    h'.length.trans h.length, ?_⟩
  intro i run'' hrun''
  obtain ⟨run', hrun', hdrain'⟩ := h'.runs i run'' hrun''
  obtain ⟨run, hrun, hdrain⟩ := h.runs i run' hrun'
  refine ⟨run, hrun, ?_⟩
  rcases hdrain' with rfl | rfl
  · exact hdrain
  · rcases hdrain with rfl | rfl
    · exact .inr rfl
    · exact .inr rfl

theorem drain (s : Service) (run : Option ℕ) : Drains s (s.drain run) := by
  cases run with
  | none => exact refl s
  | some i =>
    refine ⟨rfl, rfl, rfl, rfl, rfl, rfl, id, List.length_modify .., ?_⟩
    intro j run' hrun'
    have hmodify : (s.runs.modify i ScheduledRun.drain)[j]? = some run' := hrun'
    rw [List.getElem?_modify] at hmodify
    obtain ⟨run, hrun, rfl⟩ := Option.map_eq_some_iff.mp hmodify
    refine ⟨run, hrun, ?_⟩
    split
    · exact .inr rfl
    · exact .inl rfl

theorem lockAdmission (s : Service) : Drains s s.lockAdmission := by
  unfold Service.lockAdmission
  split
  · exact drain s _
  · exact refl s

/-- A new state behind the slot that is closed if the old one is. -/
theorem app (s : Service) {app : AppState} (h : ¬ Admitting s.app → ¬ Admitting app) :
    Drains s { s with app := app } :=
  ⟨rfl, rfl, rfl, rfl, rfl, rfl, h, rfl, fun _ run h => ⟨run, h, .inl rfl⟩⟩

theorem stopForReconciliation (s : Service) (error : PersistenceError) :
    Drains s (s.stopForReconciliation error) := by
  refine (app s ?_).trans ((drain _ _).trans (drain _ _))
  intro hclosed
  split
  · exact not_admitting_latch _ _
  · exact hclosed

theorem write (s : Service) (op : WriteOp) (fates : Fates) :
    Drains s (s.write R op fates).2 := by
  have hclosed : ¬ Admitting s.lockAdmission.app →
      ¬ Admitting ((App.machine R).step s.app (op, fates)).2 := by
    intro hclosed
    rw [Service.lockAdmission_app] at hclosed
    rwa [(step_of_closed hclosed (op, fates)).2]
  have happ := (lockAdmission s).trans (app s.lockAdmission hclosed)
  unfold Service.write
  dsimp only
  split
  · exact happ.trans ((drain _ _).trans (drain _ _))
  · split
    · exact happ.trans (drain _ _)
    · exact happ

end Drains

theorem Drains.owned (h : Drains s s') (i : ℕ) : s'.owned i = s.owned i := by
  rw [Service.owned, h.handled]
  rfl

/-- A run is retired as before. -/
theorem Drains.retired (h : Drains s s') {i : ℕ} {run : ScheduledRun}
    (hrun : s.runs[i]? = some run) :
    ∃ run', s'.runs[i]? = some run' ∧ run'.retired = run.retired := by
  have hlt : i < s'.runs.length := h.length ▸ (List.getElem?_eq_some_iff.mp hrun).1
  obtain ⟨old, hold, hdrain⟩ := h.runs i _ (List.getElem?_eq_getElem hlt)
  obtain rfl : old = run := Option.some.inj (hold.symm.trans hrun)
  refine ⟨_, List.getElem?_eq_getElem hlt, ?_⟩
  rcases hdrain with hsame | hdrain
  · rw [hsame]
  · rw [hdrain]
    rfl

theorem Drains.ownerOf (h : Drains s s') (outcome : JobOutcome) :
    s'.ownerOf outcome = s.ownerOf outcome := by
  have hids : ∀ i : ℕ, s'.runs[i]?.map ScheduledRun.id = s.runs[i]?.map ScheduledRun.id := by
    intro i
    cases hrun' : s'.runs[i]? with
    | none =>
      have hlt := List.getElem?_eq_none_iff.mp hrun'
      rw [h.length] at hlt
      rw [List.getElem?_eq_none_iff.mpr hlt]
    | some run' =>
      obtain ⟨run, hrun, rfl | rfl⟩ := h.runs i run' hrun'
      · rw [hrun]
      · rw [hrun]
        rfl
  unfold Service.ownerOf
  rw [h.scheduledRun]
  simp only [hids]

theorem Balanced.congr {i : ℕ} {run : ScheduledRun} (h : Balanced s i run)
    (hhandled : s'.handled = s.handled) (happ : s'.app = s.app) : Balanced s' i run := by
  have howned : s'.owned i = s.owned i := by
    rw [Service.owned, hhandled]
    rfl
  obtain ⟨hdrained, hslots, hfailure, hsource, hresult⟩ := h
  rw [← howned] at hslots hfailure hsource
  rw [← happ] at hresult
  exact ⟨hdrained, hslots, hfailure, hsource, hresult⟩

theorem Balanced.drain {i : ℕ} {run : ScheduledRun} (h : Balanced s i run) :
    Balanced s i run.drain :=
  ⟨fun _ => rfl, nofun, h.failure, h.owned, h.result⟩

theorem Books.drains (hs : Books s) (h : Drains s s') : Books s' := by
  have hbalanced : ∀ i run, s.runs[i]? = some run → Balanced s' i run := by
    intro i run hrun
    obtain ⟨hdrained, hslots, hfailure, howned, hresult⟩ := hs.balanced i run hrun
    rw [← h.owned] at hslots hfailure howned
    refine ⟨hdrained, hslots, hfailure, howned, fun r hr => ?_⟩
    obtain ⟨admission, retired, hretired, hout, hclosed⟩ := hresult r hr
    exact ⟨admission, retired, hretired, hout, fun hsome => h.closed (hclosed hsome)⟩
  constructor
  · constructor
    · rw [h.batchTracker, h.scheduledRun, hs.batch]
    · intro i hi
      rw [h.scheduledRun] at hi
      obtain ⟨run, hrun, hretired⟩ := hs.active i hi
      obtain ⟨run', hrun', hsame⟩ := h.retired hrun
      exact ⟨run', hrun', hsame.trans hretired⟩
    · intro i hi
      rw [h.gate] at hi
      obtain ⟨hactive, howned, haccepted⟩ := hs.publishing i hi
      refine ⟨h.scheduledRun.trans hactive, (h.owned i).trans howned, fun run' hrun' => ?_⟩
      obtain ⟨run, hrun, rfl | rfl⟩ := h.runs i run' hrun'
      · exact haccepted _ hrun
      · exact haccepted run hrun
    · intro p hp
      rw [h.gate] at hp
      obtain ⟨hfence, howner⟩ := hs.delivering p hp
      exact ⟨h.runFence.trans hfence, (h.ownerOf p.outcome).trans howner⟩
    · intro handled hmem i hi
      rw [h.handled] at hmem
      rw [h.length]
      exact hs.owned handled hmem i hi
    · intro hfence i run' hi hrun'
      rw [h.runFence] at hfence
      rw [h.scheduledRun] at hi
      obtain ⟨run, hrun, rfl | rfl⟩ := h.runs i run' hrun'
      · exact hs.fenced hfence i _ hi hrun
      · rfl
  · intro i run' hrun'
    obtain ⟨run, hrun, rfl | rfl⟩ := h.runs i run' hrun'
    · exact hbalanced i _ hrun
    · exact (hbalanced i run hrun).drain

/-! ## Handled outcomes -/

/-- The owner of an outcome is the active run, whose batch it is of. -/
def Service.Owns (s : Service) (outcome : JobOutcome) (owner : Option ℕ) : Prop :=
  ∀ i, owner = some i → s.scheduledRun = some i ∧ outcome.source = .scheduledBatch ∧
    ∃ run, s.runs[i]? = some run ∧ outcome.correlation = some run.id

theorem Ordered.owns (hs : Ordered s) {outcome : JobOutcome} {owner : Option ℕ}
    (h : s.ownerOf outcome = some owner) : s.Owns outcome owner := by
  rintro i rfl
  unfold Service.ownerOf at h
  split at h
  · next hsource =>
    split at h
    · next j hactive =>
      split at h
      · next hid =>
        obtain rfl : j = i := Option.some.inj (Option.some.inj h)
        obtain ⟨run, hrun, -⟩ := hs.active j hactive
        rw [hrun] at hid
        exact ⟨hactive, hsource, run, hrun, hid.symm⟩
      · cases h
    · cases h
  · cases h
  · cases h

/-- What one handled outcome does to its run; a drained run is left as it is. -/
def ScheduledRun.settle (error : Option PersistenceError) (r : ScheduledRun) : ScheduledRun :=
  { r with tracker := r.tracker - 1, failure := r.failure.or error }

theorem owned_handle (outcome : JobOutcome) (owner : Option ℕ) (step : Option DeliveryStep)
    (i : ℕ) :
    (s.handle outcome owner step).owned i =
      s.owned i ++ if owner = some i then [⟨outcome, owner, step⟩] else [] := by
  simp only [Service.owned, Service.handle, List.filter_append]
  congr 1
  by_cases h : owner = some i <;> simp [h]

/-- The run at a position after an outcome of the active run was settled. -/
theorem getElem?_settled {owner : Option ℕ} {error : Option PersistenceError} {j : ℕ}
    {run' : ScheduledRun} (h : (s.modifyRun owner (.settle error)).runs[j]? = some run') :
    ∃ run, s.runs[j]? = some run ∧ run' = if owner = some j then run.settle error else run := by
  cases owner with
  | none => exact ⟨run', h, rfl⟩
  | some i =>
    have hmodify : (s.runs.modify i (.settle error))[j]? = some run' := h
    rw [List.getElem?_modify] at hmodify
    obtain ⟨run, hrun, rfl⟩ := Option.map_eq_some_iff.mp hmodify
    refine ⟨run, hrun, ?_⟩
    simp only [Option.some.injEq]

section Modify

variable (owner : Option ℕ) (f : ScheduledRun → ScheduledRun)

@[simp] theorem modifyRun_gate : (s.modifyRun owner f).gate = s.gate := by
  cases owner <;> rfl

@[simp] theorem modifyRun_scheduledRun : (s.modifyRun owner f).scheduledRun = s.scheduledRun := by
  cases owner <;> rfl

@[simp] theorem modifyRun_batchTracker : (s.modifyRun owner f).batchTracker = s.batchTracker := by
  cases owner <;> rfl

@[simp] theorem modifyRun_runFence : (s.modifyRun owner f).runFence = s.runFence := by
  cases owner <;> rfl

@[simp] theorem modifyRun_handled : (s.modifyRun owner f).handled = s.handled := by
  cases owner <;> rfl

@[simp] theorem modifyRun_loopStopped : (s.modifyRun owner f).loopStopped = s.loopStopped := by
  cases owner <;> rfl

theorem modifyRun_owned (i : ℕ) : (s.modifyRun owner f).owned i = s.owned i := by
  cases owner <;> rfl

end Modify

theorem length_modifyRun (owner : Option ℕ) (f : ScheduledRun → ScheduledRun) :
    (s.modifyRun owner f).runs.length = s.runs.length := by
  cases owner with
  | none => rfl
  | some i => exact List.length_modify ..

theorem Balanced.settle {i : ℕ} {run : ScheduledRun} (h : Balanced s i run)
    (hretired : run.retired = none) {handled : Handled}
    (hhandled : handled.outcome.source = .scheduledBatch ∧
      handled.outcome.correlation = some run.id)
    (howned : s'.owned i = s.owned i ++ [handled]) :
    Balanced s' i (run.settle handled.unpersisted) := by
  constructor
  · intro hdrained
    have htracker : run.tracker = 0 := h.drained hdrained
    simp only [ScheduledRun.settle, htracker]
  · intro hdrained
    have htracker : run.tracker = run.slots - (s.owned i).length := h.slots hdrained
    have hslots : (run.settle handled.unpersisted).slots = run.slots := rfl
    rw [hslots, howned, List.length_append, List.length_singleton]
    simp only [ScheduledRun.settle, htracker]
    omega
  · rw [howned, firstUnpersisted, List.findSome?_append]
    simp only [ScheduledRun.settle, h.failure, firstUnpersisted, List.findSome?_cons,
      List.findSome?_nil]
    cases handled.unpersisted <;> rfl
  · intro entry hentry
    rw [howned] at hentry
    rcases List.mem_append.mp hentry with hentry | hentry
    · exact h.owned entry hentry
    · obtain rfl := List.mem_singleton.mp hentry
      exact hhandled
  · intro r hr
    obtain ⟨admission, retired, hsome, -⟩ := h.result r hr
    rw [hretired] at hsome
    cases hsome

/-- An outcome of the active run, or of no run, is settled and logged. -/
theorem Books.settle (hs : Books s) {outcome : JobOutcome} {owner : Option ℕ}
    (howns : s.Owns outcome owner) (step : Option DeliveryStep) :
    Books ((s.modifyRun owner (.settle (Handled.unpersisted ⟨outcome, owner, step⟩))).handle
      outcome owner step) := by
  set error := Handled.unpersisted ⟨outcome, owner, step⟩
  have hrun : ∀ j run', ((s.modifyRun owner (.settle error)).handle outcome owner step).runs[j]? =
      some run' → ∃ run, s.runs[j]? = some run ∧
        run' = if owner = some j then run.settle error else run :=
    fun j run' h => getElem?_settled h
  constructor
  · constructor
    · simpa [Service.handle] using hs.batch
    · intro i hi
      simp only [Service.handle, modifyRun_scheduledRun] at hi
      obtain ⟨run, hold, hretired⟩ := hs.active i hi
      have hlt : i < (s.modifyRun owner (.settle error)).runs.length := by
        rw [length_modifyRun]
        exact (List.getElem?_eq_some_iff.mp hold).1
      obtain ⟨old, hold', hsettled⟩ := hrun i _ (List.getElem?_eq_getElem hlt)
      obtain rfl : old = run := Option.some.inj (hold'.symm.trans hold)
      refine ⟨_, List.getElem?_eq_getElem hlt, ?_⟩
      rw [hsettled]
      split
      · exact hretired
      · exact hretired
    · rintro i ⟨⟩
    · rintro p ⟨⟩
    · intro handled hmem i hi
      simp only [Service.handle, modifyRun_handled] at hmem ⊢
      rw [length_modifyRun]
      rcases List.mem_append.mp hmem with hmem | hmem
      · exact hs.owned handled hmem i hi
      · obtain rfl := List.mem_singleton.mp hmem
        obtain ⟨-, -, run, hold, -⟩ := howns i hi
        exact (List.getElem?_eq_some_iff.mp hold).1
    · intro hfence i run' hi hrun'
      simp only [Service.handle, modifyRun_runFence, modifyRun_scheduledRun] at hfence hi
      obtain ⟨run, hold, rfl⟩ := hrun i run' hrun'
      have hdrained := hs.fenced hfence i run hi hold
      split
      · exact hdrained
      · exact hdrained
  · intro i run' hrun'
    obtain ⟨run, hold, rfl⟩ := hrun i run' hrun'
    have howned := owned_handle (s := s.modifyRun owner (.settle error)) outcome owner step i
    rw [modifyRun_owned] at howned
    split
    · next howner =>
      rw [if_pos howner] at howned
      obtain ⟨hactive, hsource, own, hown, hid⟩ := howns i howner
      obtain rfl : own = run := Option.some.inj (hown.symm.trans hold)
      obtain ⟨current, hcurrent, hretired⟩ := hs.active i hactive
      obtain rfl : current = own := Option.some.inj (hcurrent.symm.trans hold)
      exact (hs.balanced i current hold).settle hretired ⟨hsource, hid⟩ howned
    · next howner =>
      rw [if_neg howner, List.append_nil] at howned
      obtain ⟨hdrained, hslots, hfailure, hsource, hresult⟩ := hs.balanced i run hold
      rw [← howned] at hslots hfailure hsource
      refine ⟨hdrained, hslots, hfailure, hsource, ?_⟩
      simpa [Service.handle] using hresult

/-- Every slot of the owner is covered by a drain. -/
def Service.CoveredBy (s : Service) (owner : Option ℕ) : Prop :=
  ∀ i run, owner = some i → s.runs[i]? = some run → run.drained = true

theorem CoveredBy.settle_none (hs : Books s) {owner : Option ℕ} (h : s.CoveredBy owner) :
    s.modifyRun owner (.settle none) = s := by
  cases owner with
  | none => rfl
  | some i =>
    have hruns : s.runs.modify i (.settle none) = s.runs := by
      ext1 j
      rw [List.getElem?_modify]
      cases hrun : s.runs[j]? with
      | none => rfl
      | some run =>
        split
        · next hij =>
          have htracker := (hs.balanced j run hrun).drained (h j run (by rw [hij]) hrun)
          have hsame : run.settle none = run := by
            obtain ⟨id, tracker, failure, total, accepted, retired, result, drained⟩ := run
            obtain rfl : tracker = 0 := htracker
            simp only [ScheduledRun.settle, Option.or_none]
          exact congrArg some hsame
        · rfl
    simp only [Service.modifyRun, hruns]

/-- An outcome is logged without a slot when a drain covers its run. -/
theorem Books.cover (hs : Books s) {outcome : JobOutcome} {owner : Option ℕ}
    (howns : s.Owns outcome owner) (hcovered : s.CoveredBy owner) {step : Option DeliveryStep}
    (hstep : Handled.unpersisted ⟨outcome, owner, step⟩ = none) :
    Books (s.handle outcome owner step) := by
  have hsettled := hs.settle howns step
  rwa [hstep, CoveredBy.settle_none hs hcovered] at hsettled

theorem Books.deliver (hs : Books s) {p : Pending} (hfence : s.runFence = none)
    (howner : s.ownerOf p.outcome = some p.owner) : Books { s with gate := .delivering p } := by
  obtain ⟨⟨hbatch, hactive, -, -, howned, hfenced⟩, hbalanced⟩ := hs
  refine ⟨⟨hbatch, hactive, nofun, ?_, howned, hfenced⟩, fun i run hrun => ?_⟩
  · rintro q ⟨⟩
    exact ⟨hfence, howner⟩
  · exact (hbalanced i run hrun).congr rfl rfl

theorem Books.fence (hs : Books s) (hgate : s.gate = .free) (hcovered : s.CoveredBy s.scheduledRun)
    (fence : Option FenceSignal) : Books { s with runFence := fence } := by
  obtain ⟨⟨hbatch, hactive, -, -, howned, -⟩, hbalanced⟩ := hs
  refine ⟨⟨hbatch, hactive, ?_, ?_, howned, ?_⟩, fun i run hrun => ?_⟩
  · intro i hi
    exact absurd (hgate.symm.trans hi) nofun
  · intro p hp
    exact absurd (hgate.symm.trans hp) nofun
  · exact fun _ i run hi hrun => hcovered i run hi hrun
  · exact (hbalanced i run hrun).congr rfl rfl

theorem Books.stopLoop (hs : Books s) : Books { s with loopStopped := true } := by
  obtain ⟨⟨hbatch, hactive, hpublishing, hdelivering, howned, hfenced⟩, hbalanced⟩ := hs
  refine ⟨⟨hbatch, hactive, hpublishing, hdelivering, howned, hfenced⟩, fun i run hrun => ?_⟩
  exact (hbalanced i run hrun).congr rfl rfl

/-- A drain of the active run covers it. -/
theorem coveredBy_drain (run : Option ℕ) : (s.drain run).CoveredBy run := by
  rintro i run' rfl hrun'
  have hmodify : (s.runs.modify i ScheduledRun.drain)[i]? = some run' := hrun'
  rw [List.getElem?_modify] at hmodify
  obtain ⟨run, -, rfl⟩ := Option.map_eq_some_iff.mp hmodify
  rw [if_pos rfl]
  rfl

theorem Drains.coveredBy (h : Drains s s') {owner : Option ℕ} (hcovered : s.CoveredBy owner) :
    s'.CoveredBy owner := by
  intro i run' howner hrun'
  obtain ⟨run, hrun, rfl | rfl⟩ := h.runs i run' hrun'
  · exact hcovered i _ howner hrun
  · rfl

theorem Drains.owns (h : Drains s s') {outcome : JobOutcome} {owner : Option ℕ}
    (howns : s.Owns outcome owner) : s'.Owns outcome owner := by
  intro i howner
  obtain ⟨hactive, hsource, run, hrun, hid⟩ := howns i howner
  have hlt : i < s'.runs.length := h.length ▸ (List.getElem?_eq_some_iff.mp hrun).1
  obtain ⟨old, hold, hdrain⟩ := h.runs i _ (List.getElem?_eq_getElem hlt)
  obtain rfl : old = run := Option.some.inj (hold.symm.trans hrun)
  refine ⟨h.scheduledRun.trans hactive, hsource, _, List.getElem?_eq_getElem hlt, ?_⟩
  rcases hdrain with hsame | hdrain
  · rw [hsame, hid]
  · rw [hdrain]
    exact hid

/-! ## Steps of the loop -/

theorem retireSlots_eq (owner : Option ℕ) :
    s.retireSlots owner 1 = s.modifyRun owner (.settle none) := by
  have hsettle : (fun r : ScheduledRun => { r with tracker := r.tracker - 1 }) = .settle none := by
    funext r
    simp only [ScheduledRun.settle, Option.or_none]
  rw [Service.retireSlots, hsettle]

theorem Books.delivered (hs : Books s) {outcome : JobOutcome} {owner : Option ℕ}
    (howns : s.Owns outcome owner) :
    Books ((s.applyOwnedDeliveryStep .delivered owner).handle outcome owner (some .delivered)) := by
  have hsettled := hs.settle howns (some .delivered)
  rw [Service.applyOwnedDeliveryStep, retireSlots_eq]
  exact hsettled

theorem stopForReconciliation_coveredBy (error : PersistenceError) :
    (s.stopForReconciliation error).CoveredBy s.scheduledRun :=
  (Drains.drain _ _).coveredBy (coveredBy_drain s.scheduledRun)

/-- What covers the active run covers the owner of an outcome. -/
theorem coveredBy_of_owns {outcome : JobOutcome} {owner : Option ℕ} (howns : s.Owns outcome owner)
    (h : s'.CoveredBy s.scheduledRun) : s'.CoveredBy owner :=
  fun i run howner hrun => h i run (howns i howner).1 hrun

theorem fenceActiveRun_handle (signal : FenceSignal) (outcome : JobOutcome) (owner : Option ℕ)
    (step : Option DeliveryStep) :
    (s.fenceActiveRun signal).handle outcome owner step =
      { (s.drain s.batchTracker).handle outcome owner step with
        runFence := some (s.runFence.getD signal) } := by
  obtain ⟨app, gate, runs, scheduledRun, batchTracker, runFence, loopStopped, handled⟩ := s
  cases batchTracker <;> rfl

theorem unpersisted_eq (error : PersistenceError) (owner : Option ℕ) :
    s.applyOwnedDeliveryStep (.unpersisted error) owner =
      s.modifyRun owner (.settle (some error)) := by
  rw [Service.applyOwnedDeliveryStep, retireSlots_eq]
  cases owner with
  | none => rfl
  | some i =>
    have hsettle : ScheduledRun.settle none ∘
        (fun r => { r with failure := some (r.failure.getD error) }) = .settle (some error) := by
      funext r
      simp only [Function.comp, ScheduledRun.settle, Option.or_none]
      cases r.failure <;> rfl
    simp only [Service.modifyRun, List.modify_modify_eq, hsettle]

theorem Books.failed (hs : Books s) {outcome : JobOutcome} {owner : Option ℕ}
    (howns : s.Owns outcome owner) (error : PersistenceError) :
    let step := classifyPersistFailure error
    Books ((s.applyOwnedDeliveryStep step owner).handle outcome owner (some step)) := by
  intro step
  generalize step = step
  cases step with
  | delivered => exact hs.delivered howns
  | reconciliationRequired error =>
    have hdrains := Drains.stopForReconciliation s error
    have hcovered := coveredBy_of_owns howns (stopForReconciliation_coveredBy error)
    exact (hs.drains hdrains).cover (hdrains.owns howns) hcovered rfl
  | unpersisted error =>
    rw [unpersisted_eq]
    exact hs.settle howns (some (.unpersisted error))
  | fenced signal =>
    have hdrains := Drains.drain s s.batchTracker
    have hactive : (s.drain s.batchTracker).CoveredBy s.scheduledRun := by
      rw [hs.batch]
      exact coveredBy_drain s.scheduledRun
    have hhandled : Books ((s.drain s.batchTracker).handle outcome owner (some (.fenced signal))) :=
      (hs.drains hdrains).cover (hdrains.owns howns) (coveredBy_of_owns howns hactive) rfl
    rw [Service.applyOwnedDeliveryStep, fenceActiveRun_handle]
    refine hhandled.fence rfl ?_ _
    rw [← hdrains.scheduledRun] at hactive
    exact hactive

/-- A write that panics covers the active run. -/
theorem write_coveredBy {op : WriteOp} {fates : Fates}
    (h : (s.write R op fates).1 = .error .panic) :
    (s.write R op fates).2.CoveredBy s.scheduledRun := by
  unfold Service.write at h ⊢
  dsimp only at h ⊢
  split at h
  · next hanswer =>
    exact (Drains.drain _ _).coveredBy (coveredBy_drain s.scheduledRun)
  · next hanswer =>
    split at h
    · exact absurd h hanswer
    · exact absurd h hanswer

theorem Books.attempt (hs : Books s) {p : Pending} (hgate : s.gate = .delivering p)
    (fates : Fates) :
    Books (s.attempt R p fates).2 := by
  have hdrains : Drains s (s.write R p.op fates).2 := Drains.write s p.op fates
  obtain ⟨hfence, howner⟩ := hs.delivering p hgate
  have hbooks := hs.drains hdrains
  have howns := hdrains.owns (hs.owns howner)
  unfold Service.attempt
  dsimp only
  have hcovered := fun hanswer : (s.write R p.op fates).1 = .error .panic =>
    coveredBy_of_owns (hs.owns howner) (write_coveredBy hanswer)
  split
  · refine hbooks.deliver (p := { p with attempt := p.attempt + 1 })
      (hdrains.runFence.trans hfence) ?_
    exact (hdrains.ownerOf p.outcome).trans howner
  all_goals
    split
    · exact hbooks.delivered howns
    · next error hanswer => exact hbooks.failed howns error
    · next hanswer => exact (hbooks.cover howns (hcovered hanswer) rfl).stopLoop

theorem Books.receive (hs : Books s) (hpoisoned : s.app.projectionState.poisoned = false)
    (outcome : JobOutcome) (timestamp : String) : Books (s.receive outcome timestamp) := by
  have hdrains := Drains.lockAdmission s
  have hbooks := hs.drains hdrains
  have hlocked : s.lockAdmission.app.projectionState.poisoned = false := by
    rw [Service.lockAdmission_app, hpoisoned]
  unfold Service.receive
  dsimp only
  generalize s.lockAdmission = s at hbooks hlocked
  split
  · exact hbooks.stopLoop
  · split
    · refine hbooks.cover ?_ ?_ rfl
      · rintro i ⟨⟩
      · rintro i run ⟨⟩
    · next owner howner =>
      have howns := hbooks.owns howner
      split
      · next hfence =>
        refine hbooks.cover howns (coveredBy_of_owns howns ?_) rfl
        exact fun i run => hbooks.fenced hfence i run
      · next hfence =>
        have hfence : s.runFence = none := by simpa using hfence
        split
        · exact hbooks.deliver hfence howner
        · rw [hlocked, if_neg Bool.false_ne_true]
          split
          · exact hbooks.deliver hfence howner
          · exact hbooks.delivered howns

/-! ## Steps of runs -/

theorem Books.free (hs : Books s) : Books { s with gate := .free } := by
  obtain ⟨⟨hbatch, hactive, -, -, howned, hfenced⟩, hbalanced⟩ := hs
  refine ⟨⟨hbatch, hactive, ?_, ?_, howned, hfenced⟩, fun i run hrun => ?_⟩
  · rintro i ⟨⟩
  · rintro p ⟨⟩
  exact (hbalanced i run hrun).congr rfl rfl

/-- A run is changed, but neither its identity nor its place. -/
theorem Books.modify (hs : Books s) {i : ℕ} {f : ScheduledRun → ScheduledRun}
    (hgate : s.gate = .publishing i → ∀ run, run.accepted = run.total →
      (f run).accepted = (f run).total)
    (hid : ∀ run, (f run).id = run.id)
    (hdrained : ∀ run, run.drained = true → (f run).drained = true)
    (hretired : s.scheduledRun = some i → ∀ run, (f run).retired = run.retired)
    (hbalanced : ∀ run, s.runs[i]? = some run → Balanced s i (f run)) :
    Books (s.modifyRun (some i) f) := by
  have hrun : ∀ j : ℕ, (s.modifyRun (some i) f).runs[j]? =
      s.runs[j]?.map fun run => if i = j then f run else run :=
    fun j => List.getElem?_modify ..
  have hids : ∀ j : ℕ, (s.modifyRun (some i) f).runs[j]?.map ScheduledRun.id =
      s.runs[j]?.map ScheduledRun.id := by
    intro j
    rw [hrun, Option.map_map]
    congr 1
    funext run
    simp only [Function.comp]
    split
    · exact hid run
    · rfl
  constructor
  · constructor
    · exact hs.batch
    · intro j hj
      obtain ⟨run, hold, hnone⟩ := hs.active j hj
      refine ⟨_, by rw [hrun, hold, Option.map_some], ?_⟩
      split
      · next hij =>
        subst hij
        rw [hretired hj, hnone]
      · exact hnone
    · intro j hj
      obtain ⟨hactive, howned, haccepted⟩ := hs.publishing j hj
      refine ⟨hactive, howned, fun run' hrun' => ?_⟩
      rw [hrun] at hrun'
      obtain ⟨run, hold, rfl⟩ := Option.map_eq_some_iff.mp hrun'
      split
      · next hij =>
        subst hij
        exact hgate hj run (haccepted run hold)
      · exact haccepted run hold
    · intro p hp
      obtain ⟨hfence, howner⟩ := hs.delivering p hp
      refine ⟨hfence, ?_⟩
      rw [← howner]
      unfold Service.ownerOf
      simp only [hids]
      rfl
    · intro handled hmem j hj
      rw [length_modifyRun]
      exact hs.owned handled hmem j hj
    · intro hfence j run' hj hrun'
      rw [hrun] at hrun'
      obtain ⟨run, hold, rfl⟩ := Option.map_eq_some_iff.mp hrun'
      have hcovered := hs.fenced hfence j run hj hold
      split
      · exact hdrained run hcovered
      · exact hcovered
  · intro j run' hrun'
    rw [hrun] at hrun'
    obtain ⟨run, hold, rfl⟩ := Option.map_eq_some_iff.mp hrun'
    split
    · next hij =>
      subst hij
      exact (hbalanced run hold).congr (modifyRun_handled ..) (Service.modifyRun_app ..)
    · exact (hs.balanced j run hold).congr (modifyRun_handled ..) (Service.modifyRun_app ..)

theorem Books.published (hs : Books s) {run : ℕ} (hgate : s.gate = .publishing run)
    (accepted : ℕ) : Books (s.published run accepted) := by
  obtain ⟨hactive, howned, haccepted⟩ := hs.publishing run hgate
  have hmodified : Books ({ s with gate := .free }.modifyRun (some run) fun r =>
      { r with tracker := r.tracker - (r.total - accepted), accepted := accepted }) := by
    refine hs.free.modify (fun h => nomatch h) (fun _ => rfl) (fun _ => id) (fun _ _ => rfl) ?_
    intro r hr
    obtain ⟨hdrained, hslots, hfailure, hsource, hresult⟩ := hs.balanced run r hr
    have hall := haccepted r hr
    refine ⟨?_, ?_, hfailure, hsource, fun result hr' => ?_⟩
    · intro hd
      have htracker : r.tracker = 0 := hdrained hd
      simp only [htracker, Nat.zero_sub]
    · intro hd
      have htracker := hslots hd
      have hnone : ({ s with gate := .free } : Service).owned run = [] := howned
      simp only [ScheduledRun.slots, hall, howned, List.length_nil] at htracker
      simp only [ScheduledRun.slots, hnone, List.length_nil, htracker]
      omega
    · obtain ⟨admission, retired, hretired, -⟩ := hresult result hr'
      obtain ⟨current, hcurrent, hopen⟩ := hs.active run hactive
      obtain rfl : current = r := Option.some.inj (hcurrent.symm.trans hr)
      rw [hopen] at hretired
      cases hretired
  have hlocked := hmodified.drains (Drains.lockAdmission _)
  unfold Service.published
  dsimp only
  split
  · exact hlocked.drains (Drains.drain _ _)
  · exact hlocked

/-- No outcome was handled for a run that is yet to come. -/
theorem owned_eq_nil (hs : Ordered s) {i : ℕ} (hi : s.runs.length ≤ i) : s.owned i = [] := by
  rw [Service.owned, List.filter_eq_nil_iff]
  intro handled hmem howner
  have hlt := hs.owned handled hmem i (by simpa using howner)
  omega

theorem Books.publish (hs : Books s) (hgate : s.gate = .free) (id : RunId) (expected : ℕ) :
    Books (s.publish id expected).2 := by
  unfold Service.publish
  split
  · obtain ⟨⟨hbatch, hactive, hpublishing, -, howned, -⟩, hbalanced⟩ := hs
    refine ⟨⟨hbatch, hactive, hpublishing, ?_, howned, nofun⟩, fun i run hrun => ?_⟩
    · intro p hp
      exact absurd (hgate.symm.trans hp) nofun
    · exact (hbalanced i run hrun).congr rfl rfl
  · next hfence =>
    have hnil := owned_eq_nil hs.toOrdered (Nat.le_refl s.runs.length)
    constructor
    · constructor
      · rfl
      · rintro i ⟨⟩
        exact ⟨_, List.getElem?_concat_length .., rfl⟩
      · rintro i ⟨⟩
        refine ⟨rfl, hnil, fun run hrun => ?_⟩
        obtain rfl := Option.some.inj ((List.getElem?_concat_length ..).symm.trans hrun)
        rfl
      · rintro p ⟨⟩
      · intro handled hmem i hi
        have hlt := hs.owned handled hmem i hi
        simp only [List.length_append, List.length_singleton]
        omega
      · intro hsome
        rw [hfence] at hsome
        cases hsome
    · intro i run hrun
      rcases Nat.lt_or_ge i s.runs.length with hlt | hge
      · have hold : s.runs[i]? = some run := by
          rw [← hrun]
          exact (List.getElem?_append_left hlt).symm
        exact (hs.balanced i run hold).congr rfl rfl
      · have hlength := (List.getElem?_eq_some_iff.mp hrun).1
        simp only [List.length_append, List.length_singleton] at hlength
        obtain rfl : i = s.runs.length := by omega
        obtain rfl := Option.some.inj ((List.getElem?_concat_length ..).symm.trans hrun)
        have hnone : ({ s with
          runs := s.runs ++ [⟨id, expected, none, expected, expected, none, none, false⟩]
          scheduledRun := some s.runs.length
          batchTracker := some s.runs.length
          gate := .publishing s.runs.length } : Service).owned s.runs.length = [] := hnil
        refine ⟨nofun, fun _ => ?_, ?_, ?_, fun r hr => nomatch hr⟩
        · rw [hnone]
          simp only [ScheduledRun.slots, List.length_nil]
          omega
        · rw [hnone]
          rfl
        · rw [hnone]
          intro handled hmem
          cases hmem

theorem Books.retireBatch (hs : Books s) (hgate : s.gate = .free) {run : ℕ}
    (hopen : s.runs[run]?.bind ScheduledRun.retired = none) : Books (s.retireBatch run) := by
  have hbalanced : ∀ r outcome, s.runs[run]? = some r →
      Balanced s run { r with retired := some outcome } := by
    intro r outcome hr
    obtain ⟨hdrained, hslots, hfailure, hsource, hresult⟩ := hs.balanced run r hr
    refine ⟨hdrained, hslots, hfailure, hsource, fun result hr' => ?_⟩
    obtain ⟨admission, retired, hretired, -⟩ := hresult result hr'
    rw [hr, Option.bind_some, hretired] at hopen
    cases hopen
  unfold Service.retireBatch
  split
  · next hactive =>
    have hidle : Books { s with scheduledRun := none, batchTracker := none, runFence := none } := by
      obtain ⟨⟨-, -, -, -, howned, -⟩, hall⟩ := hs
      refine ⟨⟨rfl, nofun, ?_, ?_, howned, nofun⟩, fun i r hr => ?_⟩
      · intro i hi
        exact absurd (hgate.symm.trans hi) nofun
      · intro p hp
        exact absurd (hgate.symm.trans hp) nofun
      · exact (hall i r hr).congr rfl rfl
    refine hidle.modify (fun _ _ => id) (fun _ => rfl) (fun _ => id) nofun fun r hr => ?_
    exact (hbalanced r (.retired s.runFence) hr).congr rfl rfl
  · next hother =>
    refine hs.modify (fun _ _ => id) (fun _ => rfl) (fun _ => id) (fun h => absurd h hother) ?_
    exact fun r hr => hbalanced r .notOwner hr

theorem Books.conclude (hs : Books s) (run : ℕ) : Books (s.conclude run) := by
  have hlocked := hs.drains (Drains.lockAdmission s)
  unfold Service.conclude
  dsimp only
  refine hlocked.modify ?_ ?_ ?_ ?_ ?_
  · intro _ r hr
    split <;> exact hr
  · intro r
    split <;> rfl
  · intro r hr
    split <;> exact hr
  · intro _ r
    split <;> rfl
  · intro r hr
    obtain ⟨hdrained, hslots, hfailure, hsource, hresult⟩ := hlocked.balanced run r hr
    split
    · next retired hretired _ =>
      refine ⟨hdrained, hslots, hfailure, hsource, ?_⟩
      rintro result ⟨⟩
      refine ⟨lockWriteAdmission s.app, retired, hretired, rfl, fun hclosed => ?_⟩
      rw [Service.lockAdmission_app, Admitting]
      exact Option.isSome_iff_ne_none.mp hclosed
    · exact ⟨hdrained, hslots, hfailure, hsource, hresult⟩

end GhReport.Delivery
