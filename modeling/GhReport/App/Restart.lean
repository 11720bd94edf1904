import GhReport.App.Outcome
import GhReport.Pardosa.Canonical
import GhReport.Projection.Slots

/-! # Restart

A restart folds the primary log, then the defined events of the two dedicated
logs. The dedicated folds repeat events of the primary log, and the upsert
absorbs them, except for a team whose record the dedicated log keeps although
the primary log detached it.
-/

namespace GhReport.App

open Domain Event Pardosa Store Projection Upsert EvidenceProjection

def projectionFromStores (R : Runtime) (s : AppState) : Except StoreError EvidenceProjection := do
  let projection ← s.eventStore.foldEvents .default (foldNativeEvent R.calendar)
  let projection ← s.orgEventStore.foldDefinedEvents projection foldOrgEvent
  s.teamEventStore.foldDefinedEvents projection foldTeamEvent

/-! ## Folds over a log -/

/-- The events of a cache whose fibers were not detached with them. -/
def defined {E : Type} (cached : CachedEvents E) : List E :=
  cached.filterMap fun entry => if entry.1 then none else some entry.2.2

section Folds

variable {E P : Type}

theorem defined_append (xs ys : CachedEvents E) : defined (xs ++ ys) = defined xs ++ defined ys :=
  List.filterMap_append

theorem foldl_defined (fold : P → E → P) (p : P) (cached : CachedEvents E) :
    cached.foldl (fun acc entry => if !entry.1 then fold acc entry.2.2 else acc) p =
      (defined cached).foldl fold p := by
  induction cached generalizing p with
  | nil => rfl
  | cons entry cached ih =>
    obtain ⟨detached, fiberId, event⟩ := entry
    rw [List.foldl_cons, ih]
    cases detached <;> rfl

end Folds

/-- The organisation states of the dedicated log. -/
def orgModels (cached : CachedEvents OrgStateCaptured) : List OrgReadModel :=
  (defined cached).map fun event => .ofSnapshot event.toDomain

/-- The rosters that the dedicated log keeps for a team. -/
def teamRecords (cached : CachedEvents TeamStateCaptured) (k : String) : List TeamRoster :=
  (defined cached).filterMap fun event => if event.key = k then some event.toDomain else none

/-! ## Reading the stores back -/

section Readable

variable {E : Type} {S : Schema E} {fate : Fate} {detached landed : Bool} {fiberId : FiberId}
  {event : E} {s s' : StoreInner E}

/-- A store whose cache can be read. -/
structure Readable (s : StoreInner E) : Prop where
  knowledge : s.knowledge = ⟨.ready, false⟩
  cached : s.cached.poisoned = false

theorem Readable.lockCached (h : Readable s) : s.lockCached = .ok s.cached.value := by
  simp only [StoreInner.lockCached, StoreInner.lockKnowledge, h.knowledge, h.cached]
  rfl

theorem Readable.foldEvents (h : Readable s) {P : Type} (p : P) (fold : P → Bool → E → P) :
    s.foldEvents p fold = .ok (s.cached.value.foldl (fun p e => fold p e.1 e.2.2) p) := by
  rw [StoreInner.foldEvents, h.lockCached]
  rfl

theorem Readable.foldDefinedEvents (h : Readable s) {P : Type} (p : P) (fold : P → E → P) :
    s.foldDefinedEvents p fold = .ok ((defined s.cached.value).foldl fold p) := by
  rw [StoreInner.foldDefinedEvents, h.lockCached, ← foldl_defined]
  rfl

theorem Took.readable (h : Took S fate detached fiberId event s landed s') (hs : Readable s) :
    Readable s' := by
  cases h with
  | idle hdetached hfiber hne => exact hs
  | wrote h hactive =>
    cases h with
    | done payload hready hpayload =>
      constructor
      · change (⟨.ready, s.knowledge.poisoned⟩ : Mutex WriteKnowledge) = _
        rw [hs.knowledge]
      · exact hs.cached

/-- The cache grows by the event that was written, if one was. -/
theorem Took.cached (h : Took S fate detached fiberId event s landed s') :
    s'.cached.value =
      s.cached.value ++ if landed then [(detached, fiberId, event)] else [] := by
  cases h with
  | idle hdetached hfiber hne => simp
  | wrote h hactive =>
    cases h with
    | done payload hready hpayload => rfl

/-- Nothing was written only when detaching a fiber that is not active. -/
theorem Took.idle_of_not_landed (h : Took S fate detached fiberId event s landed s')
    (hlanded : landed = false) :
    detached = true ∧ ∃ status, fate.fiber = some status ∧ status ≠ .active := by
  cases h with
  | idle hdetached hfiber hne => exact ⟨hdetached, _, hfiber, hne⟩
  | wrote h hactive => cases hlanded

/-- A detach was written only to an active fiber. -/
theorem Took.active_of_landed (h : Took S fate true fiberId event s landed s')
    (hlanded : landed = true) : fate.fiber = some .active := by
  cases h with
  | idle hdetached hfiber hne => cases hlanded
  | wrote h hactive => exact hactive rfl

/-- The defined events grow by the event, unless it was written to detach. -/
theorem Took.defined (h : Took S fate detached fiberId event s landed s') :
    App.defined s'.cached.value =
      App.defined s.cached.value ++ if detached then [] else [event] := by
  rw [h.cached, defined_append]
  cases h with
  | idle hdetached hfiber hne => simp [hdetached, App.defined]
  | wrote h hactive => cases detached <;> rfl

theorem Shared.readable {part : Option E} (h : Shared S fate detached fiberId part s s')
    (hs : Readable s) : Readable s' := by
  cases part with
  | none => rw [show s' = s from h]; exact hs
  | some event =>
    obtain ⟨landed, h⟩ := h
    exact h.readable hs

theorem Shared.defined {part : Option E} (h : Shared S fate detached fiberId part s s') :
    App.defined s'.cached.value =
      App.defined s.cached.value ++ if detached then [] else part.toList := by
  cases part with
  | none => rw [show s' = s from h]; simp
  | some event =>
    obtain ⟨landed, h⟩ := h
    exact h.defined

end Readable

/-! ## When a write replays as it was folded -/

/-- The state of a fiber, as the last event on it says. -/
def fiberStatus {E : Type} (cached : CachedEvents E) (fiberId : FiberId) : FiberStatus :=
  match (cached.filter fun entry => entry.2.1 = fiberId).getLast? with
  | none => .undefined
  | some entry => if entry.1 then .detached else .active

/-- Detaching would leave the projection as it is. -/
def NothingToDetach (p : EvidenceProjection) : DomainEvent → Prop
  | .repositoryStateCaptured domainKey _ _ _ => p.repositories[domainKey.text]? = none
  | .teamStateCaptured team =>
    p.teamRosters[team.key]? = none ∧
      p.teamGhostRosters[team.key]? = ghostOf (some team.toDomain)
  | .orgStateCaptured _ => True
  | .repositoryDeleted _ _ _ => False

/--
A detach replays if the dedicated log keeps no record of the team, and the primary log takes the
detach or there is nothing to detach. Every other write replays.
-/
def Replays (R : Runtime) (s : AppState) (w : Written) : Prop :=
  w.detached = true →
    (∀ team, teamPart w.event = some team →
      teamRecords s.teamEventStore.cached.value team.key = []) ∧
    (fiberStatus s.eventStore.cached.value (R.deriveFiberId w.domainKey) = .active ∨
      NothingToDetach s.projectionState.value w.event)

/-- The primary session reports the state of the fiber that the log gives. -/
def Truthful (R : Runtime) (s : AppState) (w : Written) (fates : Fates) : Prop :=
  ∀ status, fates.primary.fiber = some status →
    status = fiberStatus s.eventStore.cached.value (R.deriveFiberId w.domainKey)

/-- A restart would come up with the resident projection. -/
def Consistent (R : Runtime) (s : AppState) : Prop :=
  projectionFromStores R s = .ok s.projectionState.value

theorem foldNativeEvent_eq_self {C : Calendar} {p : EvidenceProjection} {event : DomainEvent}
    (h : NothingToDetach p event) : foldNativeEvent C p true event = p := by
  cases event with
  | repositoryStateCaptured domainKey repoName timestamp evidence =>
    change { p with repositories := p.repositories.erase domainKey.text } = p
    rw [KeyMap.erase_eq_self h]
  | repositoryDeleted domainKey repoName detectedAt => exact h.elim
  | orgStateCaptured org => rfl
  | teamStateCaptured team =>
    apply ext_slots
    · intro k
      rw [foldNativeEvent, repoSlot_apply]
      rfl
    · rw [foldNativeEvent, orgState_apply]
      rfl
    · intro k
      rw [foldNativeEvent, teamSlot_apply]
      simp only [teamProjectionEvent, TeamSlot.step]
      split
      · rfl
      · rename_i hk
        rw [ne_eq, not_not] at hk
        subst hk
        simp only [if_true, teamSlot, h.1, h.2]

/-- A detach that leaves the projection as it is had nothing to detach. -/
theorem nothingToDetach_of_eq {C : Calendar} {p : EvidenceProjection} {event : DomainEvent}
    (hevent : ∀ k n t, event ≠ .repositoryDeleted k n t)
    (h : foldNativeEvent C p true event = p) : NothingToDetach p event := by
  cases event with
  | repositoryStateCaptured domainKey repoName timestamp evidence =>
    have hslot := congrArg (fun p => (p.repoSlot domainKey.text).evidence) h
    simp only [foldNativeEvent, repoSlot_apply, RepoSlot.step, ne_eq, not_true_eq_false, if_false,
      if_true] at hslot
    exact hslot.symm
  | repositoryDeleted domainKey repoName detectedAt => exact absurd rfl (hevent _ _ _)
  | orgStateCaptured org => trivial
  | teamStateCaptured team =>
    have hslot := congrArg (fun p => p.teamSlot team.key) h
    simp only [foldNativeEvent, teamProjectionEvent, teamSlot_apply, TeamSlot.step, ne_eq,
      not_true_eq_false, if_false, if_true] at hslot
    exact ⟨(TeamSlot.mk.inj hslot).1.symm, (TeamSlot.mk.inj hslot).2.symm⟩

/-! ## The invariant -/

/-- The part of an event that the dedicated logs hold, on the projection. -/
theorem orgState_foldNativeEvent (C : Calendar) (p : EvidenceProjection) (detached : Bool)
    (event : DomainEvent) :
    (foldNativeEvent C p detached event).orgState =
      keepAll OrgReadModel.isComplete p.orgState
        ((if detached then [] else (orgPart event).toList).map fun org =>
          .ofSnapshot org.toDomain) := by
  cases event with
  | orgStateCaptured org =>
    cases detached with
    | true => rfl
    | false =>
      rw [foldNativeEvent, if_neg Bool.false_ne_true, foldOrgEvent, orgState_apply]
      rfl
  | repositoryStateCaptured domainKey repoName timestamp evidence =>
    rw [foldNativeEvent, orgState_apply]
    cases detached <;> rfl
  | repositoryDeleted domainKey repoName detectedAt =>
    rw [foldNativeEvent, orgState_apply]
    cases detached <;> rfl
  | teamStateCaptured team =>
    rw [foldNativeEvent, orgState_apply]
    cases detached <;> rfl

theorem teamSlot_foldNativeEvent (C : Calendar) (p : EvidenceProjection) (detached : Bool)
    (event : DomainEvent) (k : String) :
    (foldNativeEvent C p detached event).teamSlot k =
      match teamPart event with
      | some team => (p.teamSlot k).step k (teamProjectionEvent detached team)
      | none => p.teamSlot k := by
  cases event with
  | orgStateCaptured org =>
    cases detached with
    | true => rfl
    | false => rw [foldNativeEvent, if_neg Bool.false_ne_true, foldOrgEvent, teamSlot_apply]; rfl
  | repositoryStateCaptured domainKey repoName timestamp evidence =>
    rw [foldNativeEvent, teamSlot_apply]; rfl
  | repositoryDeleted domainKey repoName detectedAt => rw [foldNativeEvent, teamSlot_apply]; rfl
  | teamStateCaptured team => rw [foldNativeEvent, teamSlot_apply]; rfl

/-- A team slot holds what the records of its dedicated log leave, and no ghost beside them. -/
structure SlotTracks (slot : TeamSlot) (records : List TeamRoster) : Prop where
  roster : slot.roster = keepAll rosterComplete none records
  ghost : records ≠ [] → slot.ghost = none

theorem SlotTracks.record {slot : TeamSlot} {records : List TeamRoster}
    (h : SlotTracks slot records) (more : List TeamRoster) :
    SlotTracks (TeamSlot.record slot more) (records ++ more) := by
  constructor
  · rw [TeamSlot.record_roster, h.roster, keepAll_append]
  · intro hne
    by_cases hmore : more = []
    · rw [hmore, List.append_nil] at hne
      rw [hmore]
      exact h.ghost hne
    · exact TeamSlot.record_ghost slot hmore

/-- Recording once more what the slot tracks changes nothing. -/
theorem SlotTracks.absorb {slot : TeamSlot} {records : List TeamRoster}
    (h : SlotTracks slot records) : TeamSlot.record slot records = slot := by
  by_cases hne : records = []
  · rw [hne]; rfl
  · have hroster := TeamSlot.record_roster slot records
    have hghost := TeamSlot.record_ghost slot hne
    rw [h.roster, keepAll_absorb, ← h.roster] at hroster
    rw [← h.ghost hne] at hghost
    generalize TeamSlot.record slot records = slot' at hroster hghost ⊢
    cases slot'
    simp only at hroster hghost
    rw [hroster, hghost]

/-- The records that an event adds to those of the team `k`. -/
def recordsOf (k : String) (events : List TeamStateCaptured) : List TeamRoster :=
  events.filterMap fun event => if event.key = k then some event.toDomain else none

theorem teamRecords_of_defined {cached cached' : CachedEvents TeamStateCaptured}
    {events : List TeamStateCaptured} (h : defined cached' = defined cached ++ events)
    (k : String) :
    teamRecords cached' k = teamRecords cached k ++ recordsOf k events := by
  simp only [teamRecords, recordsOf, h, List.filterMap_append]

/-- A team event moves the slot of its own team. -/
theorem step_teamProjectionEvent (slot : TeamSlot) (k : String) (detached : Bool)
    (team : TeamStateCaptured) :
    slot.step k (teamProjectionEvent detached team) =
      if team.key = k then
        if detached then ⟨none, ghostOf (some team.toDomain)⟩
        else ⟨keep rosterComplete slot.roster team.toDomain, none⟩
      else slot := by
  simp only [TeamSlot.step, teamProjectionEvent, ite_not]

/-- The slot of a team after a record of one of the teams. -/
theorem step_record (slot : TeamSlot) (k : String) (team : TeamStateCaptured) :
    slot.step k (teamProjectionEvent false team) = TeamSlot.record slot (recordsOf k [team]) := by
  rw [step_teamProjectionEvent]
  by_cases hk : team.key = k
  · simp [TeamSlot.record, recordsOf, hk]
  · simp [TeamSlot.record, recordsOf, hk]

/-- A detach of a team without records, or of another team, keeps the slot tracking. -/
theorem SlotTracks.detach {slot : TeamSlot} {records : List TeamRoster}
    (h : SlotTracks slot records) {k : String} {team : TeamStateCaptured}
    (hk : team.key = k → records = []) :
    SlotTracks (slot.step k (teamProjectionEvent true team)) records := by
  rw [step_teamProjectionEvent]
  by_cases hkey : team.key = k
  · rw [if_pos hkey, if_pos rfl, hk hkey]
    constructor
    · rfl
    · intro hne
      exact absurd rfl hne
  · rw [if_neg hkey]
    exact h

/--
The projection is the fold of the primary log, and the dedicated logs hold what it holds of
organisation and teams.
-/
structure Tracks (R : Runtime) (s : AppState) : Prop where
  primary : Readable s.eventStore
  org : Readable s.orgEventStore
  team : Readable s.teamEventStore
  live : s.projectionState.value = s.eventStore.cached.value.foldl
    (fun p entry => foldNativeEvent R.calendar p entry.1 entry.2.2) .default
  orgState : s.projectionState.value.orgState =
    keepAll OrgReadModel.isComplete none (orgModels s.orgEventStore.cached.value)
  slot : ∀ k, SlotTracks (s.projectionState.value.teamSlot k)
    (teamRecords s.teamEventStore.cached.value k)

variable {R : Runtime} {fates : Fates} {w : Written} {s s' : AppState}

theorem projectionFromStores_eq (hp : Readable s.eventStore) (ho : Readable s.orgEventStore)
    (ht : Readable s.teamEventStore) :
    projectionFromStores R s =
      .ok ((defined s.teamEventStore.cached.value).foldl foldTeamEvent
        ((defined s.orgEventStore.cached.value).foldl foldOrgEvent
          (s.eventStore.cached.value.foldl
            (fun p entry => foldNativeEvent R.calendar p entry.1 entry.2.2) .default))) := by
  unfold projectionFromStores
  rw [hp.foldEvents]
  change (s.orgEventStore.foldDefinedEvents _ foldOrgEvent >>= fun p =>
    s.teamEventStore.foldDefinedEvents p foldTeamEvent) = _
  rw [ho.foldDefinedEvents]
  change s.teamEventStore.foldDefinedEvents _ foldTeamEvent = _
  rw [ht.foldDefinedEvents]

/-- Folding the dedicated logs again changes nothing. -/
theorem Tracks.consistent (h : Tracks R s) : Consistent R s := by
  rw [Consistent, projectionFromStores_eq h.primary h.org h.team, ← h.live]
  obtain ⟨hoo, hor, hot⟩ := foldl_foldOrgEvent (defined s.orgEventStore.cached.value)
    s.projectionState.value
  obtain ⟨hto, htr, htt⟩ := foldl_foldTeamEvent (defined s.teamEventStore.cached.value)
    ((defined s.orgEventStore.cached.value).foldl foldOrgEvent s.projectionState.value)
  congr 1
  apply ext_slots
  · intro k
    rw [htr, hor]
  · rw [hto, hoo, h.orgState]
    exact keepAll_absorb _ _ _
  · intro k
    rw [htt, hot]
    exact (h.slot k).absorb

theorem Tracks.empty : Tracks R .empty := by
  constructor
  · exact ⟨rfl, rfl⟩
  · exact ⟨rfl, rfl⟩
  · exact ⟨rfl, rfl⟩
  · rfl
  · rfl
  · intro k
    constructor
    · simp [AppState.empty, EvidenceProjection.default, teamSlot, StoreInner.create, teamRecords,
        defined]
    · intro hne
      exact absurd rfl hne

/-- A write that replays keeps the invariant. -/
theorem Tracks.applied (h : Tracks R s) (ha : Applied R fates w s s')
    (htruth : Truthful R s w fates) (hreplays : Replays R s w) : Tracks R s' := by
  obtain ⟨landed, hprimary⟩ := ha.primary
  have hvalue : s'.projectionState.value =
      foldNativeEvent R.calendar s.projectionState.value w.detached w.event := by
    rw [ha.projection]
  have horg := ha.org.defined
  have hteam := ha.team.defined
  constructor
  · exact hprimary.readable h.primary
  · exact ha.org.readable h.org
  · exact ha.team.readable h.team
  · rw [hvalue, hprimary.cached, List.foldl_append, ← h.live]
    cases hlanded : landed with
    | true => rfl
    | false =>
      obtain ⟨hdetached, status, hfiber, hne⟩ := hprimary.idle_of_not_landed hlanded
      rcases (hreplays hdetached).2 with hactive | hnothing
      · rw [htruth _ hfiber] at hne
        exact absurd hactive hne
      · rw [hdetached, foldNativeEvent_eq_self hnothing]
        rfl
  · rw [hvalue, orgState_foldNativeEvent, h.orgState, ← keepAll_append]
    simp only [orgModels, horg, List.map_append]
  · intro k
    rw [hvalue, teamSlot_foldNativeEvent, teamRecords_of_defined hteam]
    cases hpart : teamPart w.event with
    | none =>
      simp only [Option.toList_none, ite_self, recordsOf, List.filterMap_nil, List.append_nil]
      exact h.slot k
    | some team =>
      cases hdetached : w.detached with
      | false =>
        change SlotTracks (((s.projectionState.value).teamSlot k).step k
          (teamProjectionEvent false team)) (_ ++ recordsOf k [team])
        rw [step_record]
        exact (h.slot k).record _
      | true =>
        simp only [if_true, recordsOf, List.filterMap_nil, List.append_nil]
        apply (h.slot k).detach
        rintro rfl
        exact (hreplays hdetached).1 team hpart

/-- A write that does not replay leaves a projection that a restart does not come up with. -/
theorem Tracks.not_consistent (h : Tracks R s) (ha : Applied R fates w s s')
    (htruth : Truthful R s w fates)
    (hevent : w.detached = true → ∀ k n t, w.event ≠ .repositoryDeleted k n t)
    (hreplays : ¬ Replays R s w) : ¬ Consistent R s' := by
  intro hconsistent
  obtain ⟨landed, hprimary⟩ := ha.primary
  have hvalue : s'.projectionState.value =
      foldNativeEvent R.calendar s.projectionState.value w.detached w.event := by
    rw [ha.projection]
  have horg := ha.org.defined
  have hteam := ha.team.defined
  apply hreplays
  intro hdetached
  rw [Consistent, projectionFromStores_eq (hprimary.readable h.primary)
    (ha.org.readable h.org) (ha.team.readable h.team)] at hconsistent
  have hboot := Except.ok.inj hconsistent
  rw [hdetached, if_pos rfl, List.append_nil] at horg hteam
  rw [horg, hteam, hvalue, hdetached] at hboot
  constructor
  · intro team hpart
    by_contra hne
    -- The boot fold brings the roster back that the live fold took away.
    have hslot := congrArg (fun p => (p.teamSlot team.key).roster) hboot
    simp only [(foldl_foldTeamEvent _ _).2.2, TeamSlot.record_roster, teamSlot_foldNativeEvent,
      hpart, TeamSlot.step, teamProjectionEvent, ne_eq, not_true_eq_false, if_false,
      if_true] at hslot
    obtain ⟨r, records, hrecords⟩ := List.exists_cons_of_ne_nil hne
    rw [← teamRecords, hrecords] at hslot
    have hsome : (none : Option TeamRoster).isSome = true := by
      rw [← hslot]
      exact isSome_keepAll_cons _ _ _ _
    cases hsome
  · by_contra hnone
    obtain ⟨hinactive, hnothing⟩ := not_or.mp hnone
    have hlanded : landed = false := by
      by_contra hlanded
      rw [hdetached] at hprimary
      exact hinactive (htruth _ (hprimary.active_of_landed (by simpa using hlanded))).symm
    have hcached := hprimary.cached
    rw [hlanded, if_neg Bool.false_ne_true, List.append_nil] at hcached
    have hbefore := h.consistent
    rw [Consistent, projectionFromStores_eq h.primary h.org h.team, ← hcached] at hbefore
    rw [Except.ok.inj hbefore] at hboot
    exact hnothing (nothingToDetach_of_eq (hevent hdetached) hboot.symm)

/-! ## Runs -/

/-- A step of the run answers Ok, with the session truthful about the primary fiber. -/
def Succeeds (R : Runtime) (s : AppState) (i : WriteOp × Fates) : Prop :=
  ((machine R).step s i).1 = .ok () ∧ ∀ w, i.1.written R = .ok w → Truthful R s w i.2

/-- The condition of a step for a restart to replay it. -/
def StepReplays (R : Runtime) (s : AppState) (i : WriteOp × Fates) : Prop :=
  ∀ w, i.1.written R = .ok w → Replays R s w

/-- An operation never detaches a deletion. -/
theorem written_ne_deleted {op : WriteOp} (h : op.written R = .ok w) (hd : w.detached = true)
    (k n t) : w.event ≠ .repositoryDeleted k n t := by
  cases op with
  | removeRepo domainKey repoName timestamp =>
    obtain ⟨event, hevent, hw⟩ := Except.bind_eq_ok_iff.mp h
    obtain ⟨_, _, _, rfl, _⟩ := repoEvent_ok hevent
    cases hw
    simp
  | detachTeam org roster fetchedAt status =>
    obtain ⟨event, hevent, hw⟩ := Except.bind_eq_ok_iff.mp h
    cases hw
    simp
  | recordRepo domainKey evidence repoName timestamp =>
    obtain ⟨native, _, h⟩ := Except.bind_eq_ok_iff.mp h
    obtain ⟨event, _, hw⟩ := Except.bind_eq_ok_iff.mp h
    cases hw
    cases hd
  | markRepoDeleted domainKey repoName detectedAt =>
    obtain ⟨event, _, hw⟩ := Except.bind_eq_ok_iff.mp h
    cases hw
    cases hd
  | recordOrg snapshot =>
    obtain ⟨event, _, hw⟩ := Except.bind_eq_ok_iff.mp h
    cases hw
    cases hd
  | recordTeam org roster fetchedAt status =>
    obtain ⟨event, _, hw⟩ := Except.bind_eq_ok_iff.mp h
    cases hw
    cases hd

/-- A successful step applied what its operation writes. -/
theorem applied_of_succeeds {i : WriteOp × Fates} (h : Succeeds R s i) :
    ∃ w, i.1.written R = .ok w ∧ Applied R i.2 w s ((machine R).step s i).2 := by
  have hw := step_wrote R i.2 i.1 s
  obtain ⟨hok, _⟩ := h
  change ((machine R).step s (i.1, i.2)).1 = _ at hok
  rw [hok] at hw
  cases hw with
  | applied _ hdone => exact hdone

/-- From a state that tracks, a step replays exactly when a restart after it is consistent. -/
theorem Tracks.step {i : WriteOp × Fates} (h : Tracks R s) (hi : Succeeds R s i) :
    (StepReplays R s i → Tracks R ((machine R).step s i).2) ∧
      (Consistent R ((machine R).step s i).2 → StepReplays R s i) := by
  obtain ⟨w, hw, happlied⟩ := applied_of_succeeds hi
  have htruth : Truthful R s w i.2 := hi.2 w hw
  constructor
  · intro hreplays
    exact h.applied happlied htruth (hreplays w hw)
  · intro hconsistent w' hw'
    rw [hw] at hw'
    cases hw'
    by_contra hreplays
    exact h.not_consistent happlied htruth (written_ne_deleted hw) hreplays hconsistent

theorem Tracks.consistent_along_iff (h : Tracks R s) {is : List (WriteOp × Fates)}
    (hrun : (machine R).Along (Succeeds R) s is) :
    (∀ js, js <+: is → Consistent R ((machine R).after s js)) ↔
      (machine R).Along (StepReplays R) s is := by
  induction is generalizing s with
  | nil =>
    constructor
    · intro _
      trivial
    · rintro _ js hjs
      rw [List.prefix_nil.mp hjs]
      exact h.consistent
  | cons i is ih =>
    obtain ⟨hi, hrest⟩ := hrun
    obtain ⟨hkeep, hneed⟩ := h.step hi
    constructor
    · intro hall
      have hreplays : StepReplays R s i := hneed (hall [i] ⟨is, rfl⟩)
      refine ⟨hreplays, (ih (hkeep hreplays) hrest).mp fun js hjs => ?_⟩
      exact hall (i :: js) (List.cons_prefix_cons.mpr ⟨rfl, hjs⟩)
    · rintro ⟨hreplays, hlater⟩ js hjs
      cases js with
      | nil => exact h.consistent
      | cons j js =>
        obtain ⟨rfl, htail⟩ := List.cons_prefix_cons.mp hjs
        exact (ih (hkeep hreplays) hrest).mpr hlater js htail

/--
Restart equivalence. A run of successful writes from empty stores leaves in every state the
projection that a restart comes up with exactly when each of its steps replays.
-/
theorem restart_equivalence_iff (R : Runtime) (is : List (WriteOp × Fates))
    (hrun : (machine R).Along (Succeeds R) .empty is) :
    (∀ js, js <+: is → Consistent R ((machine R).after .empty js)) ↔
      (machine R).Along (StepReplays R) .empty is :=
  Tracks.empty.consistent_along_iff hrun

/-! ## A run that does not replay -/

/-- The canonical codecs, one fiber for every key and a calendar of one instant. -/
def sampleRuntime : Runtime where
  calendar := ⟨fun _ => some 1, fun _ => some "1970-01-01T00:00:00Z"⟩
  primitives := canonical
  lawful := canonical_lawful
  deriveFiberId _ := 0

/-- A session that lands the write on a fiber in the given state. -/
def landingOn (status : FiberStatus) : Fate :=
  .returns ⟨.ok 1, .ok (), .ok status, .ok .landed, .ok ()⟩

def sampleRoster (status : TeamRosterStatus) : TeamRoster where
  canonicalOwner := "@org/team"
  teamSlug := "team"
  status := status
  members := []
  fetchedAt := none

def sampleRecord (status : TeamRosterStatus) (fiber : FiberStatus) : WriteOp × Fates :=
  (.recordTeam "org" (sampleRoster status) "" .fetched, ⟨landingOn fiber, landingOn fiber⟩)

def sampleDetach : WriteOp × Fates :=
  (.detachTeam "org" (sampleRoster .deleted) "" .fetched, ⟨landingOn .active, landingOn .active⟩)

/-- The state of the sample after a team was recorded whole. -/
def sampleRecorded : AppState :=
  ((machine sampleRuntime).step .empty (sampleRecord .complete .undefined)).2

theorem sampleRecord_succeeds :
    Succeeds sampleRuntime .empty (sampleRecord .complete .undefined) := by
  refine ⟨rfl, fun w hw => ?_⟩
  cases hw
  rintro status ⟨⟩
  rfl

theorem sampleDetach_succeeds : Succeeds sampleRuntime sampleRecorded sampleDetach := by
  refine ⟨rfl, fun w hw => ?_⟩
  cases hw
  rintro status ⟨⟩
  rfl

/-- Record a team whole and detach it: the restart brings it back. -/
theorem restart_resurrects_detached_team :
    ¬ ∀ (R : Runtime) (is : List (WriteOp × Fates)), (machine R).Along (Succeeds R) .empty is →
      Consistent R ((machine R).after .empty is) := by
  intro hclaim
  have h := hclaim sampleRuntime [sampleRecord .complete .undefined, sampleDetach]
    ⟨sampleRecord_succeeds, sampleDetach_succeeds, trivial⟩
  have hsize : (projectionFromStores sampleRuntime ((machine sampleRuntime).after .empty
      [sampleRecord .complete .undefined, sampleDetach])).toOption.map
        (fun p => p.teamRosters.size) = some 1 := by
    decide +kernel
  rw [h] at hsize
  have hlive : ((machine sampleRuntime).after .empty [sampleRecord .complete .undefined,
      sampleDetach]).projectionState.value.teamRosters.size = 0 := by
    decide +kernel
  simp only [Except.toOption, Option.map_some, hlive] at hsize
  cases hsize

/-- A run that records a team replays. -/
theorem restart_equivalence_iff_recorded :
    let i := sampleRecord .complete .undefined
    Consistent sampleRuntime ((machine sampleRuntime).after .empty [i]) := by
  intro i
  refine (restart_equivalence_iff sampleRuntime [i] ⟨sampleRecord_succeeds, trivial⟩).mpr
    ⟨?_, trivial⟩ [i] (List.prefix_refl _)
  intro w hw hdetached
  cases hw
  cases hdetached

end GhReport.App
