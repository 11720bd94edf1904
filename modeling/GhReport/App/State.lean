import GhReport.App.Persistence
import GhReport.Event.RoundTrip
import GhReport.Library.Effect
import GhReport.Library.Machine
import GhReport.Projection.Apply

/-! # The write operations

Every write runs behind one admission slot. It builds its event, writes it to the
primary store and, for organisations and teams, to the dedicated store, and only
then folds it into the resident projection.
-/

namespace GhReport.App

open Domain Event Pardosa Store Projection

/-! ## State -/

/-- What the writes are given from outside: the calendar, the primitive codecs, fiber ids. -/
structure Runtime where
  calendar : Calendar
  primitives : Primitives
  lawful : primitives.Lawful
  deriveFiberId : String → FiberId

namespace Runtime

variable (R : Runtime)

def schema : Schema DomainEvent :=
  ⟨DomainEvent.codec R.primitives, DomainEvent.codec_lawful R.lawful⟩

def orgSchema : Schema OrgStateCaptured :=
  ⟨OrgStateCaptured.codec R.primitives, OrgStateCaptured.codec_lawful R.lawful⟩

def teamSchema : Schema TeamStateCaptured :=
  ⟨TeamStateCaptured.codec R.primitives, TeamStateCaptured.codec_lawful R.lawful⟩

end Runtime

structure AppState where
  writeAdmission : Mutex (Option PersistenceError)
  eventStore : StoreInner DomainEvent
  orgEventStore : StoreInner OrgStateCaptured
  teamEventStore : StoreInner TeamStateCaptured
  projectionState : Mutex EvidenceProjection

/-- Empty stores and an empty projection. -/
def AppState.empty : AppState :=
  ⟨⟨none, false⟩, .create, .create, .create, ⟨.default, false⟩⟩

/-- Why a write stops: an error that it returns, or a panic. -/
inductive Stop (ε : Type) where
  | error (error : ε)
  | panic

def Stop.map {ε ε' : Type} (f : ε → ε') : Stop ε → Stop ε'
  | .error e => .error (f e)
  | .panic => .panic

/-- A running write: the state and whether its primary effect landed. -/
structure Running where
  app : AppState
  primaryLanded : Bool

abbrev Operation (α : Type) := Effect (Stop PersistenceError) Running α

/-! ## Calls on a store -/

/-- How a call on a store goes: the session answers, or it panics under the knowledge lock. -/
inductive Fate where
  | returns (a : SessionAnswers)
  | panics (landed : Bool)

/-- The fates of the two calls a write can make. -/
structure Fates where
  primary : Fate
  dedicated : Fate

/-- The state of the fiber that the session reports, if it does. -/
def Fate.fiber : Fate → Option FiberStatus
  | .returns a => a.fiber.toOption
  | .panics _ => none

section Calls

variable {E : Type} (S : Schema E) (deriveFiberId : String → FiberId)

/-- A panic after the lock and the encoding, before or after the append landed. -/
def panicking {α : Type} (landed detached : Bool) (s : StoreInner E) (fiberId : FiberId)
    (event : E) :
    Except (Stop StoreError) α × StoreInner E :=
  match s.lockKnowledge, S.encodePayload event with
  | .error e, _ => (.error (.error e), s)
  | .ok (), .error e => (.error (.error (.encode e)), s)
  | .ok (), .ok payload =>
    (.error .panic, { s with
      journal := if landed then s.journal ++ [⟨true, detached, fiberId, payload⟩] else s.journal
      knowledge := { s.knowledge with poisoned := true } })

def recordCall (fate : Fate) (domainKey : String) (event : E) (s : StoreInner E) :
    Except (Stop StoreError) Unit × StoreInner E :=
  match fate with
  | .returns a =>
    ((s.record S deriveFiberId a domainKey event).1.mapError .error,
      (s.record S deriveFiberId a domainKey event).2)
  | .panics landed => panicking S landed false s (deriveFiberId domainKey) event

def detachCall (fate : Fate) (domainKey : String) (event : E) (s : StoreInner E) :
    Except (Stop StoreError) Bool × StoreInner E :=
  match fate with
  | .returns a =>
    ((s.detach S deriveFiberId a domainKey event).1.mapError .error,
      (s.detach S deriveFiberId a domainKey event).2)
  | .panics landed => panicking S landed true s (deriveFiberId domainKey) event

end Calls

/-- One of the stores of the state; writing to it leaves the other fields alone. -/
structure StoreField (E : Type) where
  get : AppState → StoreInner E
  set : StoreInner E → AppState → AppState
  set_get : ∀ s, set (get s) s = s
  writeAdmission_set : ∀ store s, (set store s).writeAdmission = s.writeAdmission
  projectionState_set : ∀ store s, (set store s).projectionState = s.projectionState

def eventStore : StoreField DomainEvent :=
  ⟨AppState.eventStore, fun store s => { s with eventStore := store }, fun _ => rfl,
    fun _ _ => rfl, fun _ _ => rfl⟩

def orgEventStore : StoreField OrgStateCaptured :=
  ⟨AppState.orgEventStore, fun store s => { s with orgEventStore := store }, fun _ => rfl,
    fun _ _ => rfl, fun _ _ => rfl⟩

def teamEventStore : StoreField TeamStateCaptured :=
  ⟨AppState.teamEventStore, fun store s => { s with teamEventStore := store }, fun _ => rfl,
    fun _ _ => rfl, fun _ _ => rfl⟩

/-- A call on a store, its error turned into a persistence error. -/
def onStore {E α : Type} (F : StoreField E)
    (call : StoreInner E → Except (Stop StoreError) α × StoreInner E) : Operation α :=
  Effect.zoom (fun r => F.get r.app) (fun store r => { r with app := F.set store r.app })
    fun store => ((call store).1.mapError (Stop.map nativeStorePersistence), (call store).2)

def setPrimaryLanded (landed : Bool) : Operation Unit :=
  Effect.modify fun r => { r with primaryLanded := landed }

/-- Fold under the projection lock; a poisoned lock is a panic. -/
def foldIntoProjection (fold : EvidenceProjection → EvidenceProjection) : Operation Unit := fun r =>
  if r.app.projectionState.poisoned then (.error .panic, r)
  else
    let projection := { r.app.projectionState with value := fold r.app.projectionState.value }
    (.ok (), { r with app := { r.app with projectionState := projection } })

def build {α : Type} (x : Except PersistenceError α) : Operation α :=
  Effect.lift (x.mapError .error)

/-! ## Admission -/

/-- A poisoned slot counts as latched. -/
def lockWriteAdmission (s : AppState) : Option PersistenceError :=
  if s.writeAdmission.poisoned then
    some (s.writeAdmission.value.getD (.indeterminate (.store .poisoned)))
  else s.writeAdmission.value

def latch (s : AppState) (error : PersistenceError) : AppState :=
  { s with writeAdmission := { s.writeAdmission with value := some error } }

/--
Run a write unless an earlier one is latched; latch it when it panics, when its error is
indeterminate and when it fails after its primary effect landed.
-/
def admittedWrite (operation : Operation Unit) (s : AppState) :
    Except (Stop PersistenceError) Unit × AppState :=
  match lockWriteAdmission s with
  | some error => (.error (.error (.indeterminate (.persistence error))), s)
  | none =>
    match operation ⟨s, false⟩ with
    | (.ok (), r) => (.ok (), r.app)
    | (.error .panic, r) => (.error .panic, latch r.app (.indeterminate (.store .poisoned)))
    | (.error (.error e), r) =>
      if r.primaryLanded || e.isIndeterminate then
        let error := if r.primaryLanded then .indeterminate (.primaryEffect e) else e
        (.error (.error (.indeterminate (.persistence error))), latch r.app error)
      else (.error (.error e), r.app)

/-! ## The operations -/

section Operations

variable (R : Runtime) (fates : Fates)

def recordTeam (org : String) (roster : TeamRoster) (fetchedAt : String)
    (orgMembershipFetchStatus : OrgMembershipFetchStatus) : Operation Unit := do
  let event ← build (teamStateEvent org roster fetchedAt orgMembershipFetchStatus)
  let teamKey := event.key
  onStore eventStore
    (recordCall R.schema R.deriveFiberId fates.primary teamKey (.teamStateCaptured event))
  setPrimaryLanded true
  onStore teamEventStore (recordCall R.teamSchema R.deriveFiberId fates.dedicated teamKey event)
  foldIntoProjection fun p => p.apply (teamProjectionEvent false event)

def detachTeam (org : String) (roster : TeamRoster) (fetchedAt : String)
    (orgMembershipFetchStatus : OrgMembershipFetchStatus) : Operation Unit := do
  let tombstone := detachTombstoneRoster roster
  let event ← build (teamStateEvent org tombstone fetchedAt orgMembershipFetchStatus)
  let teamKey := event.key
  let landed ← onStore eventStore
    (detachCall R.schema R.deriveFiberId fates.primary teamKey (.teamStateCaptured event))
  setPrimaryLanded landed
  let _ ← onStore teamEventStore
    (detachCall R.teamSchema R.deriveFiberId fates.dedicated teamKey event)
  foldIntoProjection fun p => p.apply (teamProjectionEvent true event)

def recordRepo (domainKey : String) (evidence : Domain.RepositoryEvidence)
    (repoName timestamp : String) : Operation Unit := do
  let nativeEvidence ← build
    ((Event.RepositoryEvidence.tryFrom R.calendar evidence).mapError conversionPersistence)
  let event ← build (repoEvent R.calendar domainKey repoName timestamp (some nativeEvidence))
  onStore eventStore (recordCall R.schema R.deriveFiberId fates.primary domainKey event)
  foldIntoProjection fun p => foldNativeEvent R.calendar p false event

def removeRepo (domainKey repoName timestamp : String) : Operation Unit := do
  let event ← build (repoEvent R.calendar domainKey repoName timestamp none)
  let _ ← onStore eventStore (detachCall R.schema R.deriveFiberId fates.primary domainKey event)
  foldIntoProjection fun p => foldNativeEvent R.calendar p true event

def markRepoDeleted (domainKey repoName detectedAt : String) : Operation Unit := do
  let event ← build (deletedRepoEvent R.calendar domainKey repoName detectedAt)
  onStore eventStore (recordCall R.schema R.deriveFiberId fates.primary domainKey event)
  foldIntoProjection fun p => foldNativeEvent R.calendar p false event

def recordOrg (snapshot : OrgStateSnapshot) : Operation Unit := do
  let event ← build ((OrgStateCaptured.tryFrom snapshot).mapError conversionPersistence)
  let orgKey := event.assessmentMetadata.organization.text
  onStore eventStore
    (recordCall R.schema R.deriveFiberId fates.primary orgKey (.orgStateCaptured event))
  setPrimaryLanded true
  onStore orgEventStore (recordCall R.orgSchema R.deriveFiberId fates.dedicated orgKey event)
  foldIntoProjection fun p => foldOrgEvent p event

end Operations

/-- A write operation with its arguments. -/
inductive WriteOp where
  | recordRepo (domainKey : String) (evidence : Domain.RepositoryEvidence)
      (repoName timestamp : String)
  | removeRepo (domainKey repoName timestamp : String)
  | markRepoDeleted (domainKey repoName detectedAt : String)
  | recordOrg (snapshot : OrgStateSnapshot)
  | recordTeam (org : String) (roster : TeamRoster) (fetchedAt : String)
      (orgMembershipFetchStatus : OrgMembershipFetchStatus)
  | detachTeam (org : String) (roster : TeamRoster) (fetchedAt : String)
      (orgMembershipFetchStatus : OrgMembershipFetchStatus)

def WriteOp.operation (R : Runtime) (fates : Fates) : WriteOp → Operation Unit
  | .recordRepo domainKey evidence repoName timestamp =>
    App.recordRepo R fates domainKey evidence repoName timestamp
  | .removeRepo domainKey repoName timestamp => App.removeRepo R fates domainKey repoName timestamp
  | .markRepoDeleted domainKey repoName detectedAt =>
    App.markRepoDeleted R fates domainKey repoName detectedAt
  | .recordOrg snapshot => App.recordOrg R fates snapshot
  | .recordTeam org roster fetchedAt status => App.recordTeam R fates org roster fetchedAt status
  | .detachTeam org roster fetchedAt status => App.detachTeam R fates org roster fetchedAt status

/-- The writes of one process, one after another; each comes with the fates of its store calls. -/
def machine (R : Runtime) :
    Machine AppState (WriteOp × Fates) (Except (Stop PersistenceError) Unit) where
  step s i := admittedWrite (i.1.operation R i.2) s

end GhReport.App
