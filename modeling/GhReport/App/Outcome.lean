import GhReport.App.State

/-! # How a write ends

A write is applied, or refused with nothing changed, or lost: then its error is
indeterminate, its primary effect landed, or it panicked. One lemma per operation
says so, from one lemma about a call on a store.
-/

namespace GhReport.App

open Domain Event Pardosa Store Projection Effect

/-! ## Store calls -/

section StoreCalls

variable {E : Type} {S : Schema E} {deriveFiberId : String → FiberId} {fate : Fate}

/-- A call that returned wrote the event, or had nothing to detach. -/
inductive Took (S : Schema E) (fate : Fate) (detached : Bool) (fiberId : FiberId) (event : E)
    (s : StoreInner E) : Bool → StoreInner E → Prop where
  | wrote {s' : StoreInner E} (h : StoreInner.Wrote S detached fiberId event s (.ok ()) s')
      (hactive : detached = true → fate.fiber = some .active) :
      Took S fate detached fiberId event s true s'
  | idle (hdetached : detached = true) {status : FiberStatus} (hfiber : fate.fiber = some status)
      (hne : status ≠ .active) : Took S fate detached fiberId event s false s

/-- A stop that leaves a write unaccounted for. -/
def Stop.Lost : Stop PersistenceError → Prop
  | .error e => e.isIndeterminate = true
  | .panic => True

/-- The outcomes of a store call: it returned, it was refused, or a write may be lost. -/
inductive Called {α : Type} (took : α → StoreInner E → Prop) (s : StoreInner E) :
    Except (Stop StoreError) α → StoreInner E → Prop where
  | took {x : α} {s' : StoreInner E} (h : took x s') : Called took s (.ok x) s'
  | refused (e : StoreError) : Called took s (.error (.error e)) s
  | lost {stop : Stop StoreError} {s' : StoreInner E}
      (h : (stop.map nativeStorePersistence).Lost) : Called took s (.error stop) s'

theorem panicking_called {α : Type} {took : α → StoreInner E → Prop} (landed detached : Bool)
    (s : StoreInner E) (fiberId : FiberId) (event : E) :
    let c : Except (Stop StoreError) α × StoreInner E :=
      panicking S landed detached s fiberId event
    Called took s c.1 c.2 := by
  intro c
  simp only [c]
  unfold panicking
  split
  · exact .refused _
  · exact .refused _
  · exact .lost trivial

/-- An error of a write left the store alone or is indeterminate. -/
theorem called_of_wrote_error {α : Type} {took : α → StoreInner E → Prop} {detached : Bool}
    {fiberId : FiberId} {event : E} {s s' : StoreInner E} {e : StoreError}
    (h : StoreInner.Wrote S detached fiberId event s (.error e) s') :
    Called took s (.error (.error e)) s' := by
  cases h with
  | refused e => exact .refused e
  | undetermined carriedEpoch applied payload => exact .lost rfl
  | unsettled e payload => exact .lost rfl

theorem recordCall_called (domainKey : String) (event : E) (s : StoreInner E) :
    Called (fun _ => Took S fate false (deriveFiberId domainKey) event s true) s
      (recordCall S deriveFiberId fate domainKey event s).1
      (recordCall S deriveFiberId fate domainKey event s).2 := by
  cases fate with
  | panics landed => exact panicking_called _ _ _ _ _
  | returns a =>
    have hw := StoreInner.record_wrote S deriveFiberId a s domainKey event
    simp only [recordCall]
    generalize s.record S deriveFiberId a domainKey event = w at hw ⊢
    obtain ⟨r, s'⟩ := w
    cases r with
    | ok u => exact .took (.wrote hw (by simp))
    | error e => exact called_of_wrote_error hw

theorem detachCall_called (domainKey : String) (event : E) (s : StoreInner E) :
    Called (Took S fate true (deriveFiberId domainKey) event s) s
      (detachCall S deriveFiberId fate domainKey event s).1
      (detachCall S deriveFiberId fate domainKey event s).2 := by
  cases fate with
  | panics landed => exact panicking_called _ _ _ _ _
  | returns a =>
    simp only [detachCall]
    rcases StoreInner.detach_wrote S deriveFiberId a s domainKey event with
      ⟨status, hfiber, hne, h⟩ | ⟨r, hr, hw, hactive⟩
    · rw [h]
      exact .took (.idle rfl (by simp [Fate.fiber, hfiber, Except.toOption]) hne)
    · generalize s.detach S deriveFiberId a domainKey event = w at hr hw ⊢
      obtain ⟨r', s'⟩ := w
      subst hr
      cases r with
      | ok u =>
        exact .took (.wrote hw fun _ => by simp [Fate.fiber, hactive rfl, Except.toOption])
      | error e => exact called_of_wrote_error hw

end StoreCalls

/-! ## Rules for the steps of an operation -/

section Rules

variable {α : Type} {f : α → Operation Unit} {r : Running}
  {Q : Except (Stop PersistenceError) Unit → Running → Prop}

theorem build_rule {x : Except PersistenceError α}
    (hok : ∀ a, x = .ok a → Q (f a r).1 (f a r).2)
    (herror : ∀ e, x = .error e → Q (.error (.error e)) r) :
    Q ((build x >>= f) r).1 ((build x >>= f) r).2 := by
  apply lift_rule
  · intro a ha
    cases x with
    | ok b => cases ha; exact hok _ rfl
    | error e => cases ha
  · intro e he
    cases x with
    | ok b => cases he
    | error e' => cases he; exact herror _ rfl

/-- A store call returned, was refused with a determinate error, or lost a write. -/
theorem onStore_rule {E : Type} {F : StoreField E} {took : α → StoreInner E → Prop}
    {call : StoreInner E → Except (Stop StoreError) α × StoreInner E}
    (hcall : Called took (F.get r.app) (call (F.get r.app)).1 (call (F.get r.app)).2)
    (hok : ∀ a store, took a store →
      Q (f a { r with app := F.set store r.app }).1 (f a { r with app := F.set store r.app }).2)
    (hrefused : ∀ e, e.isIndeterminate = false → Q (.error (.error e)) r)
    (hlost : ∀ stop : Stop PersistenceError, stop.Lost → ∀ store,
      Q (.error stop) { r with app := F.set store r.app }) :
    Q ((onStore F call >>= f) r).1 ((onStore F call >>= f) r).2 := by
  generalize hc : call (F.get r.app) = c at hcall
  obtain ⟨x, store⟩ := c
  have hstep : onStore F call r =
      (x.mapError (Stop.map nativeStorePersistence), { r with app := F.set store r.app }) := by
    simp only [onStore, zoom, hc]
  cases hcall with
  | took h =>
    rw [bind_ok hstep]
    exact hok _ _ h
  | refused e =>
    rw [bind_error hstep, F.set_get]
    cases he : (nativeStorePersistence e).isIndeterminate with
    | false => exact hrefused _ he
    | true =>
      have h := hlost (.error (nativeStorePersistence e)) he (F.get r.app)
      rwa [F.set_get] at h
  | lost h =>
    rw [bind_error hstep]
    exact hlost _ h _

theorem setPrimaryLanded_bind {f : Unit → Operation Unit} {landed : Bool} :
    (setPrimaryLanded landed >>= f) r = f () { r with primaryLanded := landed } :=
  bind_ok rfl

theorem foldIntoProjection_rule {fold : EvidenceProjection → EvidenceProjection}
    (hok : Q (.ok ()) { r with app := { r.app with projectionState :=
      { r.app.projectionState with value := fold r.app.projectionState.value } } })
    (hpanic : Q (.error .panic) r) :
    Q (foldIntoProjection fold r).1 (foldIntoProjection fold r).2 := by
  unfold foldIntoProjection
  split
  · exact hpanic
  · exact hok

end Rules

/-! ## Operations -/

/-- The ends of a write: `done` holds of the state, or nothing changed, or a write may be lost. -/
inductive Ends (done : AppState → Prop) (s : AppState) :
    Except (Stop PersistenceError) Unit → Running → Prop where
  | done {r : Running} (h : done r.app) : Ends done s (.ok ()) r
  | refused {e : PersistenceError} {r : Running} (he : e.isIndeterminate = false)
      (happ : r.app = s) (hlanded : r.primaryLanded = false) : Ends done s (.error (.error e)) r
  | lost {stop : Stop PersistenceError} {r : Running}
      (h : stop.Lost ∨ r.primaryLanded = true)
      (hadmission : r.app.writeAdmission = s.writeAdmission)
      (hprojection : r.app.projectionState = s.projectionState) : Ends done s (.error stop) r

/-- What a write writes: an event on the fiber of a key, detaching it or not. -/
structure Written where
  detached : Bool
  domainKey : String
  event : DomainEvent

/-- A dedicated store took the part of the event that is its own, or stayed as it was. -/
def Shared {E : Type} (S : Schema E) (fate : Fate) (detached : Bool) (fiberId : FiberId)
    (part : Option E) (s s' : StoreInner E) : Prop :=
  match part with
  | some event => ∃ landed, Took S fate detached fiberId event s landed s'
  | none => s' = s

def orgPart : DomainEvent → Option OrgStateCaptured
  | .orgStateCaptured org => some org
  | _ => none

def teamPart : DomainEvent → Option TeamStateCaptured
  | .teamStateCaptured team => some team
  | _ => none

/-- The stores took the event and the projection folded it. -/
structure Applied (R : Runtime) (fates : Fates) (w : Written) (s s' : AppState) : Prop where
  admission : s'.writeAdmission = s.writeAdmission
  primary : ∃ landed, Took R.schema fates.primary w.detached (R.deriveFiberId w.domainKey) w.event
    s.eventStore landed s'.eventStore
  org : Shared R.orgSchema fates.dedicated w.detached (R.deriveFiberId w.domainKey)
    (orgPart w.event) s.orgEventStore s'.orgEventStore
  team : Shared R.teamSchema fates.dedicated w.detached (R.deriveFiberId w.domainKey)
    (teamPart w.event) s.teamEventStore s'.teamEventStore
  projection : s'.projectionState = { s.projectionState with
    value := foldNativeEvent R.calendar s.projectionState.value w.detached w.event }

/-- What an operation writes, or why its arguments make no event. -/
def WriteOp.written (R : Runtime) : WriteOp → Except PersistenceError Written
  | .recordRepo domainKey evidence repoName timestamp => do
    let nativeEvidence ←
      (Event.RepositoryEvidence.tryFrom R.calendar evidence).mapError conversionPersistence
    let event ← repoEvent R.calendar domainKey repoName timestamp (some nativeEvidence)
    .ok ⟨false, domainKey, event⟩
  | .removeRepo domainKey repoName timestamp => do
    let event ← repoEvent R.calendar domainKey repoName timestamp none
    .ok ⟨true, domainKey, event⟩
  | .markRepoDeleted domainKey repoName detectedAt => do
    let event ← deletedRepoEvent R.calendar domainKey repoName detectedAt
    .ok ⟨false, domainKey, event⟩
  | .recordOrg snapshot => do
    let event ← (OrgStateCaptured.tryFrom snapshot).mapError conversionPersistence
    .ok ⟨false, event.assessmentMetadata.organization.text, .orgStateCaptured event⟩
  | .recordTeam org roster fetchedAt status => do
    let event ← teamStateEvent org roster fetchedAt status
    .ok ⟨false, event.key, .teamStateCaptured event⟩
  | .detachTeam org roster fetchedAt status => do
    let event ← teamStateEvent org (detachTombstoneRoster roster) fetchedAt status
    .ok ⟨true, event.key, .teamStateCaptured event⟩

/-- The operation wrote its event. -/
def WriteOp.Done (R : Runtime) (fates : Fates) (op : WriteOp) (s s' : AppState) : Prop :=
  ∃ w, op.written R = .ok w ∧ Applied R fates w s s'

theorem written_of_build {α : Type} {x : Except PersistenceError α} {a : α} {w : α → Written}
    (h : x = .ok a) : (x >>= fun a => .ok (w a)) = Except.ok (w a) := by
  rw [h]
  rfl

theorem nonEmpty_ok {max : Limit} {field value : String} {s : NonEmptyEventString max}
    (h : nonEmpty max field value = .ok s) : s.text = value := by
  rw [nonEmpty, Except.mapError_eq_ok_iff, toNes] at h
  split at h
  · rename_i s' hs
    cases h
    exact NonEmptyEventString.text_of_new hs
  · split at h <;> cases h

/-! ### Errors of building an event -/

/-- An event that cannot be built is never an indeterminate error. -/
def Determinate {α : Type} (x : Except PersistenceError α) : Prop :=
  ∀ e, x = .error e → e.isIndeterminate = false

section Determinate

variable {α β : Type}

theorem determinate_ok (a : α) : Determinate (.ok a) := by
  rintro e ⟨⟩

theorem determinate_conversion (x : Conv α) : Determinate (x.mapError conversionPersistence) := by
  rintro e he
  cases x with
  | ok a => cases he
  | error c => cases he; rfl

theorem Determinate.bind {x : Except PersistenceError α} {f : α → Except PersistenceError β}
    (hx : Determinate x) (hf : ∀ a, Determinate (f a)) : Determinate (x >>= f) := by
  intro e he
  cases x with
  | ok a => exact hf a e he
  | error e' => cases he; exact hx _ rfl

theorem Determinate.mapM {f : α → Except PersistenceError β} (hf : ∀ a, Determinate (f a))
    (xs : List α) : Determinate (xs.mapM f) := by
  induction xs with
  | nil => exact determinate_ok []
  | cons x xs ih =>
    rw [List.mapM_cons]
    exact (hf x).bind fun _ => ih.bind fun _ => determinate_ok _

end Determinate

theorem repoEvent_determinate (C : Calendar) (domainKey repoName timestamp : String)
    (evidence : Option Event.RepositoryEvidence) :
    Determinate (repoEvent C domainKey repoName timestamp evidence) := by
  apply (determinate_conversion _).bind; intro _
  apply (determinate_conversion _).bind; intro _
  apply (determinate_conversion _).bind; intro _
  exact determinate_ok _

theorem deletedRepoEvent_determinate (C : Calendar) (domainKey repoName detectedAt : String) :
    Determinate (deletedRepoEvent C domainKey repoName detectedAt) := by
  apply (determinate_conversion _).bind; intro _
  apply (determinate_conversion _).bind; intro _
  apply (determinate_conversion _).bind; intro _
  exact determinate_ok _

theorem teamStateEvent_determinate (org : String) (roster : TeamRoster) (fetchedAt : String)
    (status : OrgMembershipFetchStatus) :
    Determinate (teamStateEvent org roster fetchedAt status) := by
  apply Determinate.bind
  · apply Determinate.mapM
    intro member
    exact (determinate_conversion _).bind fun _ => determinate_ok _
  · intro members
    apply Determinate.bind
    · unfold boundedMembers
      cases EventVec.new Limits.maxTeamMembers members with
      | some v => exact determinate_ok v
      | none => rintro e ⟨⟩; rfl
    · intro members
      apply (determinate_conversion _).bind; intro _
      apply (determinate_conversion _).bind; intro _
      apply (determinate_conversion _).bind; intro _
      exact determinate_ok _

theorem repoEvent_ok {C : Calendar} {domainKey repoName timestamp : String}
    {evidence : Option Event.RepositoryEvidence} {event : DomainEvent}
    (h : repoEvent C domainKey repoName timestamp evidence = .ok event) :
    ∃ k n t, event = .repositoryStateCaptured k n t evidence ∧ k.text = domainKey := by
  unfold repoEvent at h
  obtain ⟨k, hk, h⟩ := Except.bind_eq_ok_iff.mp h
  obtain ⟨n, _, h⟩ := Except.bind_eq_ok_iff.mp h
  obtain ⟨t, _, h⟩ := Except.bind_eq_ok_iff.mp h
  cases h
  exact ⟨k, n, t, rfl, nonEmpty_ok hk⟩

theorem deletedRepoEvent_ok {C : Calendar} {domainKey repoName detectedAt : String}
    {event : DomainEvent} (h : deletedRepoEvent C domainKey repoName detectedAt = .ok event) :
    ∃ k n t, event = .repositoryDeleted k n t ∧ k.text = domainKey := by
  unfold deletedRepoEvent at h
  obtain ⟨k, hk, h⟩ := Except.bind_eq_ok_iff.mp h
  obtain ⟨n, _, h⟩ := Except.bind_eq_ok_iff.mp h
  obtain ⟨t, _, h⟩ := Except.bind_eq_ok_iff.mp h
  cases h
  exact ⟨k, n, t, rfl, nonEmpty_ok hk⟩

/-! ### One lemma per operation -/

section Ends

variable {R : Runtime} {fates : Fates} (s : AppState)

/-- The common end of the operations: the fold, when `done` holds after it. -/
theorem fold_ends {done : AppState → Prop} {r : Running}
    {fold : EvidenceProjection → EvidenceProjection}
    (hadmission : r.app.writeAdmission = s.writeAdmission)
    (hprojection : r.app.projectionState = s.projectionState)
    (hdone : done { r.app with projectionState :=
      { s.projectionState with value := fold s.projectionState.value } }) :
    Ends done s (foldIntoProjection fold r).1 (foldIntoProjection fold r).2 := by
  apply foldIntoProjection_rule
  · rw [← hprojection] at hdone
    exact .done hdone
  · exact .lost (.inl trivial) hadmission hprojection

theorem recordTeam_ends (org : String) (roster : TeamRoster) (fetchedAt : String)
    (status : OrgMembershipFetchStatus) :
    Ends (WriteOp.Done R fates (.recordTeam org roster fetchedAt status) s) s
      (recordTeam R fates org roster fetchedAt status ⟨s, false⟩).1
      (recordTeam R fates org roster fetchedAt status ⟨s, false⟩).2 := by
  apply build_rule
  · intro event hevent
    apply onStore_rule (recordCall_called _ _ _)
    · intro _ primary hprimary
      rw [setPrimaryLanded_bind]
      apply onStore_rule (recordCall_called _ _ _)
      · intro _ dedicated hdedicated
        apply fold_ends s rfl rfl
        refine ⟨⟨false, event.key, .teamStateCaptured event⟩, ?_, rfl, ?_, rfl, ?_, rfl⟩
        · simp only [WriteOp.written, hevent]; rfl
        · exact ⟨true, hprimary⟩
        · exact ⟨true, hdedicated⟩
      · intro e he
        exact .lost (.inr rfl) rfl rfl
      · intro stop _ dedicated
        exact .lost (.inr rfl) rfl rfl
    · intro e he
      exact .refused he rfl rfl
    · intro stop hstop primary
      exact .lost (.inl hstop) rfl rfl
  · intro e he
    exact .refused (teamStateEvent_determinate _ _ _ _ e he) rfl rfl

theorem detachTeam_ends (org : String) (roster : TeamRoster) (fetchedAt : String)
    (status : OrgMembershipFetchStatus) :
    Ends (WriteOp.Done R fates (.detachTeam org roster fetchedAt status) s) s
      (detachTeam R fates org roster fetchedAt status ⟨s, false⟩).1
      (detachTeam R fates org roster fetchedAt status ⟨s, false⟩).2 := by
  apply build_rule
  · intro event hevent
    apply onStore_rule (detachCall_called _ _ _)
    · intro landed primary hprimary
      rw [setPrimaryLanded_bind]
      apply onStore_rule (detachCall_called _ _ _)
      · intro effect dedicated hdedicated
        apply fold_ends s rfl rfl
        refine ⟨⟨true, event.key, .teamStateCaptured event⟩, ?_, rfl, ?_, rfl, ?_, rfl⟩
        · simp only [WriteOp.written, hevent]; rfl
        · exact ⟨landed, hprimary⟩
        · exact ⟨effect, hdedicated⟩
      · intro e he
        -- An idle primary left its store alone, so nothing changed at all.
        cases hprimary with
        | wrote _ _ => exact .lost (.inr rfl) rfl rfl
        | idle _ _ _ => exact .refused he rfl rfl
      · intro stop hstop dedicated
        exact .lost (.inl hstop) rfl rfl
    · intro e he
      exact .refused he rfl rfl
    · intro stop hstop primary
      exact .lost (.inl hstop) rfl rfl
  · intro e he
    exact .refused (teamStateEvent_determinate _ _ _ _ e he) rfl rfl

theorem recordOrg_ends (snapshot : OrgStateSnapshot) :
    Ends (WriteOp.Done R fates (.recordOrg snapshot) s) s
      (recordOrg R fates snapshot ⟨s, false⟩).1 (recordOrg R fates snapshot ⟨s, false⟩).2 := by
  apply build_rule
  · intro event hevent
    apply onStore_rule (recordCall_called _ _ _)
    · intro _ primary hprimary
      rw [setPrimaryLanded_bind]
      apply onStore_rule (recordCall_called _ _ _)
      · intro _ dedicated hdedicated
        apply fold_ends s rfl rfl
        refine ⟨⟨false, event.assessmentMetadata.organization.text, .orgStateCaptured event⟩,
          ?_, rfl, ?_, ?_, rfl, rfl⟩
        · simp only [WriteOp.written, hevent]; rfl
        · exact ⟨true, hprimary⟩
        · exact ⟨true, hdedicated⟩
      · intro e he
        exact .lost (.inr rfl) rfl rfl
      · intro stop _ dedicated
        exact .lost (.inr rfl) rfl rfl
    · intro e he
      exact .refused he rfl rfl
    · intro stop hstop primary
      exact .lost (.inl hstop) rfl rfl
  · intro e he
    exact .refused (determinate_conversion _ e he) rfl rfl

/-- The operations on a repository: one store call and the fold of its event. -/
theorem repo_ends {op : WriteOp} {α : Type} {took : α → StoreInner DomainEvent → Prop}
    {w : Written} {call : StoreInner DomainEvent →
      Except (Stop StoreError) α × StoreInner DomainEvent}
    (hwritten : op.written R = .ok w) (horg : orgPart w.event = none)
    (hteam : teamPart w.event = none)
    (hcall : Called took s.eventStore (call s.eventStore).1 (call s.eventStore).2)
    (htook : ∀ a store, took a store → ∃ landed, Took R.schema fates.primary w.detached
      (R.deriveFiberId w.domainKey) w.event s.eventStore landed store) :
    let body : Operation Unit := onStore eventStore call >>= fun _ =>
      foldIntoProjection fun p => foldNativeEvent R.calendar p w.detached w.event
    Ends (op.Done R fates s) s (body ⟨s, false⟩).1 (body ⟨s, false⟩).2 := by
  apply onStore_rule hcall
  · intro a store ha
    apply fold_ends s rfl rfl
    refine ⟨w, hwritten, rfl, htook a store ha, ?_, ?_, rfl⟩
    · rw [horg]; rfl
    · rw [hteam]; rfl
  · intro e he
    exact .refused he rfl rfl
  · intro stop hstop store
    exact .lost (.inl hstop) rfl rfl

theorem recordRepo_ends (domainKey : String) (evidence : Domain.RepositoryEvidence)
    (repoName timestamp : String) :
    Ends (WriteOp.Done R fates (.recordRepo domainKey evidence repoName timestamp) s) s
      (recordRepo R fates domainKey evidence repoName timestamp ⟨s, false⟩).1
      (recordRepo R fates domainKey evidence repoName timestamp ⟨s, false⟩).2 := by
  apply build_rule
  · intro native hnative
    apply build_rule
    · intro event hevent
      obtain ⟨k, n, t, rfl, _⟩ := repoEvent_ok hevent
      refine repo_ends (w := ⟨false, domainKey, _⟩) s ?_ rfl rfl (recordCall_called _ _ _)
        fun _ _ h => ⟨true, h⟩
      simp only [WriteOp.written, hnative]
      exact written_of_build hevent
    · intro e he
      exact .refused (repoEvent_determinate _ _ _ _ _ e he) rfl rfl
  · intro e he
    exact .refused (determinate_conversion _ e he) rfl rfl

theorem removeRepo_ends (domainKey repoName timestamp : String) :
    Ends (WriteOp.Done R fates (.removeRepo domainKey repoName timestamp) s) s
      (removeRepo R fates domainKey repoName timestamp ⟨s, false⟩).1
      (removeRepo R fates domainKey repoName timestamp ⟨s, false⟩).2 := by
  apply build_rule
  · intro event hevent
    obtain ⟨k, n, t, rfl, _⟩ := repoEvent_ok hevent
    exact repo_ends (w := ⟨true, domainKey, _⟩) s (written_of_build hevent) rfl rfl
      (detachCall_called _ _ _) fun landed _ h => ⟨landed, h⟩
  · intro e he
    exact .refused (repoEvent_determinate _ _ _ _ _ e he) rfl rfl

theorem markRepoDeleted_ends (domainKey repoName detectedAt : String) :
    Ends (WriteOp.Done R fates (.markRepoDeleted domainKey repoName detectedAt) s) s
      (markRepoDeleted R fates domainKey repoName detectedAt ⟨s, false⟩).1
      (markRepoDeleted R fates domainKey repoName detectedAt ⟨s, false⟩).2 := by
  apply build_rule
  · intro event hevent
    obtain ⟨k, n, t, rfl, _⟩ := deletedRepoEvent_ok hevent
    exact repo_ends (w := ⟨false, domainKey, _⟩) s (written_of_build hevent) rfl rfl
      (recordCall_called _ _ _) fun _ _ h => ⟨true, h⟩
  · intro e he
    exact .refused (deletedRepoEvent_determinate _ _ _ _ e he) rfl rfl

/-- Every operation is applied, refused without a change, or lost. -/
theorem operation_ends (op : WriteOp) :
    Ends (op.Done R fates s) s (op.operation R fates ⟨s, false⟩).1
      (op.operation R fates ⟨s, false⟩).2 := by
  cases op with
  | recordRepo domainKey evidence repoName timestamp =>
    exact recordRepo_ends s domainKey evidence repoName timestamp
  | removeRepo domainKey repoName timestamp => exact removeRepo_ends s domainKey repoName timestamp
  | markRepoDeleted domainKey repoName detectedAt =>
    exact markRepoDeleted_ends s domainKey repoName detectedAt
  | recordOrg snapshot => exact recordOrg_ends s snapshot
  | recordTeam org roster fetchedAt status => exact recordTeam_ends s org roster fetchedAt status
  | detachTeam org roster fetchedAt status => exact detachTeam_ends s org roster fetchedAt status

end Ends

/-! ## Admitted writes -/

/-- The admission slot is free. -/
def Admitting (s : AppState) : Prop := lockWriteAdmission s = none

/-- The ends of a write behind the slot: refused by the latch, applied, refused, or latched. -/
inductive Wrote (R : Runtime) (fates : Fates) (op : WriteOp) (s : AppState) :
    Except (Stop PersistenceError) Unit → AppState → Prop where
  | closed {e : PersistenceError} (hs : ¬ Admitting s) (he : e.isIndeterminate = true) :
      Wrote R fates op s (.error (.error e)) s
  | applied {s' : AppState} (hs : Admitting s) (h : op.Done R fates s s') :
      Wrote R fates op s (.ok ()) s'
  | refused {e : PersistenceError} (hs : Admitting s) (he : e.isIndeterminate = false) :
      Wrote R fates op s (.error (.error e)) s
  | lost {stop : Stop PersistenceError} {s' : AppState} (hs : Admitting s) (hstop : stop.Lost)
      (hclosed : ¬ Admitting s') (hprojection : s'.projectionState = s.projectionState) :
      Wrote R fates op s (.error stop) s'

theorem admitting_iff {s : AppState} :
    Admitting s ↔ s.writeAdmission.poisoned = false ∧ s.writeAdmission.value = none := by
  unfold Admitting lockWriteAdmission
  cases hp : s.writeAdmission.poisoned <;> simp

theorem not_admitting_latch (s : AppState) (e : PersistenceError) : ¬ Admitting (latch s e) := by
  rw [admitting_iff]
  simp [latch]

theorem step_wrote (R : Runtime) (fates : Fates) (op : WriteOp) (s : AppState) :
    Wrote R fates op s ((machine R).step s (op, fates)).1 ((machine R).step s (op, fates)).2 := by
  simp only [machine, admittedWrite]
  cases hs : lockWriteAdmission s with
  | some error =>
    refine .closed ?_ rfl
    intro h
    rw [Admitting, hs] at h
    cases h
  | none =>
    have hends : Ends (op.Done R fates s) s (op.operation R fates ⟨s, false⟩).1
        (op.operation R fates ⟨s, false⟩).2 := operation_ends s op
    generalize op.operation R fates ⟨s, false⟩ = x at hends ⊢
    obtain ⟨result, r⟩ := x
    change Ends _ s result r at hends
    cases hends with
    | done h => exact .applied hs h
    | refused he happ hlanded =>
      simp only [hlanded, he, Bool.or_self, Bool.false_eq_true, if_false, happ]
      exact .refused hs he
    | @lost stop _ h hadmission hprojection =>
      cases stop with
      | panic => exact .lost hs trivial (not_admitting_latch _ _) hprojection
      | error e =>
        have hlost : (r.primaryLanded || e.isIndeterminate) = true := by
          rcases h with h | h
          · rw [show e.isIndeterminate = true from h, Bool.or_true]
          · rw [show r.primaryLanded = true from h, Bool.true_or]
        simp only [hlost, if_true]
        exact .lost hs rfl (not_admitting_latch _ _) hprojection

end GhReport.App
