import GhReport.App.Restart
import GhReport.Store.Latest

/-! # One live event for each key

Every write operation records or detaches its event under the key the event
carries, in this process and in any other that writes to the same journals. So
the latest events of the primary store have one key each, whatever was lost,
read back or restarted on the way.
-/

namespace GhReport.App

open Domain Event Pardosa Store Projection

/-- The key that the latest event of a fiber is listed under. -/
def latestKey : DomainEvent → String
  | .repositoryStateCaptured domainKey _ _ _ => domainKey.text
  | .repositoryDeleted domainKey _ _ => domainKey.text
  | .orgStateCaptured org => org.assessmentMetadata.organization.text
  | .teamStateCaptured team =>
    match teamDomainKey team.org.text team.teamSlug.text with
    | .ok key => key
    | .error _ => ""

def latestPerRepo (s : StoreInner DomainEvent) : Except StoreError (List (String × DomainEvent)) :=
  s.latestDefined latestKey

/-! ## Reading the stores again -/

/-- What the backend answers when the three journals are read again. -/
structure Reads where
  event : Except StoreError Unit
  org : Except StoreError Unit
  team : Except StoreError Unit

/-- A call of the maintenance of the stores: its error wraps a refused admission or a store's. -/
abbrev Maintenance := Effect (Cause PersistenceError) AppState Unit

def ensureWriteAdmission : Maintenance := fun s =>
  match lockWriteAdmission s with
  | none => (.ok (), s)
  | some error => (.error (.persistence (.indeterminate (.persistence error))), s)

def resyncStore {E : Type} (F : StoreField E) (S : Schema E) (read : Except StoreError Unit) :
    Maintenance :=
  Effect.zoom F.get F.set fun store =>
    ((store.resyncFromAuthoritative S read).1.mapError .store,
      (store.resyncFromAuthoritative S read).2)

/-- In order and not as one transaction: the first failure ends it, what was read stays. -/
def resyncEventStore (R : Runtime) (reads : Reads) : Maintenance := do
  ensureWriteAdmission
  resyncStore eventStore R.schema reads.event
  resyncStore orgEventStore R.orgSchema reads.org
  resyncStore teamEventStore R.teamSchema reads.team

/-- A process that opens the three journals; a journal that does not exist yet is empty. -/
def withStores (R : Runtime) (events orgs teams : List Envelope) : Except StoreError AppState := do
  let eventStore ← StoreInner.openStore R.schema events
  let orgEventStore ← StoreInner.openStore R.orgSchema orgs
  let teamEventStore ← StoreInner.openStore R.teamSchema teams
  let opened : AppState :=
    ⟨⟨none, false⟩, eventStore, orgEventStore, teamEventStore, ⟨.default, false⟩⟩
  let projection ← projectionFromStores R opened
  .ok { opened with projectionState := ⟨projection, false⟩ }

/-! ## Moves of the state -/

/-- An envelope that another process appends to a journal. -/
def foreign {E : Type} (s : StoreInner E) (envelope : Envelope) : StoreInner E :=
  { s with journal := s.journal ++ [⟨false, envelope⟩] }

/--
What can happen to the stores: a write or a resync of this process, a restart on the journals as
they are, and what other processes write to them.
-/
inductive Move (R : Runtime) (s : AppState) : AppState → Prop where
  | write (i : WriteOp × Fates) : Move R s ((machine R).step s i).2
  | resync (reads : Reads) : Move R s (resyncEventStore R reads s).2
  | restart {s' : AppState}
      (h : withStores R (s.eventStore.journal.map (·.envelope))
        (s.orgEventStore.journal.map (·.envelope)) (s.teamEventStore.journal.map (·.envelope)) =
          .ok s') :
      Move R s s'
  | foreignEvent {op : WriteOp} {w : Written} {payload : List UInt8}
      (hw : op.written R = .ok w) (hpayload : R.schema.encodePayload w.event = .ok payload) :
      Move R s { s with
        eventStore := foreign s.eventStore ⟨w.detached, R.deriveFiberId w.domainKey, payload⟩ }
  | foreignOrg (envelope : Envelope) :
      Move R s { s with orgEventStore := foreign s.orgEventStore envelope }
  | foreignTeam (envelope : Envelope) :
      Move R s { s with teamEventStore := foreign s.teamEventStore envelope }

inductive Reachable (R : Runtime) : AppState → Prop where
  | empty : Reachable R .empty
  | move {s s' : AppState} (hs : Reachable R s) (h : Move R s s') : Reachable R s'

/-! ## Every write takes the key of its event -/

variable {R : Runtime} {s : AppState}

theorem domainKey_of_written {op : WriteOp} {w : Written} (h : op.written R = .ok w) :
    w.domainKey = latestKey w.event := by
  cases op with
  | recordRepo domainKey evidence repoName timestamp =>
    obtain ⟨native, _, h⟩ := Except.bind_eq_ok_iff.mp h
    obtain ⟨event, hevent, hw⟩ := Except.bind_eq_ok_iff.mp h
    obtain ⟨k, n, t, rfl, hk⟩ := repoEvent_ok hevent
    cases hw
    exact hk.symm
  | removeRepo domainKey repoName timestamp =>
    obtain ⟨event, hevent, hw⟩ := Except.bind_eq_ok_iff.mp h
    obtain ⟨k, n, t, rfl, hk⟩ := repoEvent_ok hevent
    cases hw
    exact hk.symm
  | markRepoDeleted domainKey repoName detectedAt =>
    obtain ⟨event, hevent, hw⟩ := Except.bind_eq_ok_iff.mp h
    obtain ⟨k, n, t, rfl, hk⟩ := deletedRepoEvent_ok hevent
    cases hw
    exact hk.symm
  | recordOrg snapshot =>
    obtain ⟨event, _, hw⟩ := Except.bind_eq_ok_iff.mp h
    cases hw
    rfl
  | recordTeam org roster fetchedAt status =>
    obtain ⟨event, _, hw⟩ := Except.bind_eq_ok_iff.mp h
    cases hw
    rfl
  | detachTeam org roster fetchedAt status =>
    obtain ⟨event, _, hw⟩ := Except.bind_eq_ok_iff.mp h
    cases hw
    rfl

/-- The primary store of a state holds keyed entries only. -/
abbrev PrimaryKeyed (R : Runtime) (s : AppState) : Prop :=
  FiberKeyed R.schema R.deriveFiberId latestKey s.eventStore

section Calls

variable {E : Type} {S : Schema E} {deriveFiberId : String → FiberId} {keyFn : E → String}
  {store : StoreInner E}

theorem keyed_panicking {α : Type} (h : FiberKeyed S deriveFiberId keyFn store)
    (landed detached : Bool) (event : E) :
    let c : Except (Stop StoreError) α × StoreInner E :=
      panicking S landed detached store (deriveFiberId (keyFn event)) event
    FiberKeyed S deriveFiberId keyFn c.2 := by
  intro c
  simp only [c]
  unfold panicking
  cases store.lockKnowledge with
  | error e => exact h
  | ok u =>
    cases hp : S.encodePayload event with
    | error e => exact h
    | ok payload =>
      cases landed with
      | false => exact ⟨h.journal, h.cached⟩
      | true => exact ⟨(h.append_journal true detached hp).journal, h.cached⟩

theorem keyed_recordCall (h : FiberKeyed S deriveFiberId keyFn store) (fate : Fate) (event : E) :
    FiberKeyed S deriveFiberId keyFn
      (recordCall S deriveFiberId fate (keyFn event) event store).2 := by
  cases fate with
  | returns a => exact h.record a event
  | panics landed => exact keyed_panicking h landed false event

theorem keyed_detachCall (h : FiberKeyed S deriveFiberId keyFn store) (fate : Fate) (event : E) :
    FiberKeyed S deriveFiberId keyFn
      (detachCall S deriveFiberId fate (keyFn event) event store).2 := by
  cases fate with
  | returns a => exact h.detach a event
  | panics landed => exact keyed_panicking h landed true event

end Calls

section Operations

variable {α : Type} {x : Operation α} {f : α → Operation Unit} {r : Running}

theorem keyed_bind (hx : PrimaryKeyed R (x r).2.app)
    (hf : ∀ a r', x r = (.ok a, r') → PrimaryKeyed R r'.app → PrimaryKeyed R (f a r').2.app) :
    PrimaryKeyed R ((x >>= f) r).2.app :=
  Effect.keeps_bind (I := fun r : Running => PrimaryKeyed R r.app) hx hf

theorem build_ok {y : Except PersistenceError α} {a : α} {r' : Running}
    (h : build y r = (.ok a, r')) : y = .ok a := by
  cases y with
  | ok b => cases h; rfl
  | error e => cases h

theorem keyed_fold (h : PrimaryKeyed R r.app) (fold : EvidenceProjection → EvidenceProjection) :
    PrimaryKeyed R (foldIntoProjection fold r).2.app := by
  unfold foldIntoProjection
  split <;> exact h

/-- The calls and the fold that follow the write of an event to the primary store. -/
theorem keyed_shared {E β : Type} (h : PrimaryKeyed R r.app) {F : StoreField E}
    (hF : ∀ store s, (F.set store s).eventStore = s.eventStore) (landed : Bool)
    (call : StoreInner E → Except (Stop StoreError) β × StoreInner E)
    (fold : EvidenceProjection → EvidenceProjection) :
    PrimaryKeyed R ((setPrimaryLanded landed >>= fun _ =>
      onStore F call >>= fun _ => foldIntoProjection fold) r).2.app := by
  refine keyed_bind h fun _ r₁ hr₁ h₁ => keyed_bind ?_ fun _ _ _ h₂ => keyed_fold h₂ fold
  change FiberKeyed _ _ _ (F.set _ _).eventStore
  rw [hF]
  exact h₁

variable (fates : Fates)

theorem keyed_operation (h : PrimaryKeyed R r.app) (op : WriteOp) :
    PrimaryKeyed R (op.operation R fates r).2.app := by
  cases op with
  | recordRepo domainKey evidence repoName timestamp =>
    refine keyed_bind h fun native r₁ _ h₁ => keyed_bind h₁ fun event r₂ hr₂ h₂ => ?_
    obtain ⟨k, n, t, rfl, rfl⟩ := repoEvent_ok (build_ok hr₂)
    exact keyed_bind (keyed_recordCall h₂ fates.primary _) fun _ _ _ h₃ => keyed_fold h₃ _
  | removeRepo domainKey repoName timestamp =>
    refine keyed_bind h fun event r₁ hr₁ h₁ => ?_
    obtain ⟨k, n, t, rfl, rfl⟩ := repoEvent_ok (build_ok hr₁)
    exact keyed_bind (keyed_detachCall h₁ fates.primary _) fun _ _ _ h₂ => keyed_fold h₂ _
  | markRepoDeleted domainKey repoName detectedAt =>
    refine keyed_bind h fun event r₁ hr₁ h₁ => ?_
    obtain ⟨k, n, t, rfl, rfl⟩ := deletedRepoEvent_ok (build_ok hr₁)
    exact keyed_bind (keyed_recordCall h₁ fates.primary _) fun _ _ _ h₂ => keyed_fold h₂ _
  | recordOrg snapshot =>
    refine keyed_bind h fun event r₁ _ h₁ => ?_
    exact keyed_bind (keyed_recordCall h₁ fates.primary (.orgStateCaptured event))
      fun _ _ _ h₂ => keyed_shared h₂ (fun _ _ => rfl) _ _ _
  | recordTeam org roster fetchedAt status =>
    refine keyed_bind h fun event r₁ _ h₁ => ?_
    exact keyed_bind (keyed_recordCall h₁ fates.primary (.teamStateCaptured event))
      fun _ _ _ h₂ => keyed_shared h₂ (fun _ _ => rfl) _ _ _
  | detachTeam org roster fetchedAt status =>
    refine keyed_bind h fun event r₁ _ h₁ => ?_
    exact keyed_bind (keyed_detachCall h₁ fates.primary (.teamStateCaptured event))
      fun _ _ _ h₂ => keyed_shared h₂ (fun _ _ => rfl) _ _ _

end Operations

theorem keyed_write (h : PrimaryKeyed R s) (i : WriteOp × Fates) :
    PrimaryKeyed R ((machine R).step s i).2 := by
  have hop := keyed_operation i.2 (r := ⟨s, false⟩) h i.1
  simp only [machine, admittedWrite]
  cases lockWriteAdmission s with
  | some error => exact h
  | none =>
    simp only
    generalize i.1.operation R i.2 ⟨s, false⟩ = x at hop ⊢
    obtain ⟨result, r⟩ := x
    cases result with
    | ok u => exact hop
    | error stop =>
      cases stop with
      | panic => exact hop
      | error e =>
        simp only
        split <;> exact hop

theorem keyed_ensureWriteAdmission (h : PrimaryKeyed R s) :
    PrimaryKeyed R (ensureWriteAdmission s).2 := by
  unfold ensureWriteAdmission
  cases lockWriteAdmission s <;> exact h

theorem keyed_resync (h : PrimaryKeyed R s) (reads : Reads) :
    PrimaryKeyed R (resyncEventStore R reads s).2 := by
  refine Effect.keeps_bind (keyed_ensureWriteAdmission h) fun _ s₁ _ h₁ => ?_
  refine Effect.keeps_bind (h₁.resync reads.event) fun _ s₂ _ h₂ => ?_
  exact Effect.keeps_bind h₂ fun _ s₃ _ h₃ => h₃

theorem keyed_withStores (h : PrimaryKeyed R s) {orgs teams : List Envelope} {s' : AppState}
    (hopen : withStores R (s.eventStore.journal.map (·.envelope)) orgs teams = .ok s') :
    PrimaryKeyed R s' := by
  unfold withStores at hopen
  obtain ⟨events, hevents, hopen⟩ := Except.bind_eq_ok_iff.mp hopen
  obtain ⟨org, _, hopen⟩ := Except.bind_eq_ok_iff.mp hopen
  obtain ⟨team, _, hopen⟩ := Except.bind_eq_ok_iff.mp hopen
  obtain ⟨projection, _, hs'⟩ := Except.bind_eq_ok_iff.mp hopen
  cases hs'
  exact h.openStore hevents

theorem keyed_move {s' : AppState} (h : PrimaryKeyed R s) (hmove : Move R s s') :
    PrimaryKeyed R s' := by
  cases hmove with
  | write i => exact keyed_write h i
  | resync reads => exact keyed_resync h reads
  | restart hopen => exact keyed_withStores h hopen
  | foreignEvent hw hpayload =>
    rw [domainKey_of_written hw]
    exact h.append_journal _ _ hpayload
  | foreignOrg envelope => exact h
  | foreignTeam envelope => exact h

theorem keyed_of_reachable (hs : Reachable R s) : PrimaryKeyed R s := by
  induction hs with
  | empty => exact FiberKeyed.create
  | move _ hmove ih => exact keyed_move ih hmove

/--
The listing of latest events is the scan for the last event on each fiber, for every cache and
key; and in every state that the write operations can reach, each cached event lies on the fiber
of its key and no two pairs of the listing share a key.
-/
theorem latest_last_writer (R : Runtime) :
    (∀ (E : Type) (s : StoreInner E) (keyFn : E → String) (cached : CachedEvents E),
      s.lockCached = .ok cached → ∃ pairs, s.latestDefined keyFn = .ok pairs ∧
        pairs.Perm ((fibers cached).filterMap (lastDefined keyFn cached))) ∧
      ∀ s, Reachable R s → ∀ cached, s.eventStore.lockCached = .ok cached →
        (∀ entry ∈ cached, entry.2.1 = R.deriveFiberId (latestKey entry.2.2)) ∧
          ∃ pairs, latestPerRepo s.eventStore = .ok pairs ∧ (pairs.map Prod.fst).Nodup := by
  constructor
  · intro E s keyFn cached hcached
    exact StoreInner.latestDefined_perm hcached keyFn
  · intro s hs cached hcached
    have hkeyed : ∀ entry ∈ cached, KeyedEntry R.deriveFiberId latestKey entry := by
      rw [← value_of_lockCached hcached]
      exact (keyed_of_reachable hs).cached
    obtain ⟨pairs, hpairs, hperm⟩ := StoreInner.latestDefined_perm hcached latestKey
    exact ⟨hkeyed, pairs, hpairs, nodup_keys_of_keyed hkeyed hperm⟩

/-- The scan and the listing after a team was recorded. -/
theorem latest_last_writer_recorded :
    let cached := sampleRecorded.eventStore.cached.value
    (∃ pairs, latestPerRepo sampleRecorded.eventStore = .ok pairs ∧
        pairs.Perm ((fibers cached).filterMap (lastDefined latestKey cached))) ∧
      (∀ entry ∈ cached, entry.2.1 = sampleRuntime.deriveFiberId (latestKey entry.2.2)) ∧
      cached.length = 1 := by
  have hreachable : Reachable sampleRuntime sampleRecorded := .move .empty (.write _)
  obtain ⟨hscan, hkeys⟩ := latest_last_writer sampleRuntime
  exact ⟨hscan _ _ latestKey _ rfl, (hkeys _ hreachable _ rfl).1, rfl⟩

end GhReport.App
