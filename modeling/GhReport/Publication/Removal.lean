import GhReport.Projection.Meaning
import GhReport.Publication.Continuity

/-! # Removals and the displayed report

A deletion leaves a record that the next capture carries; a removal and a detach
leave none. So a legitimate removal lets a newer report be admitted exactly when
it was a deletion whose record still stands.
-/

namespace GhReport.Publication

open Domain Event Projection App Inventory Publisher EvidenceProjection

/-! ## Deletion records -/

/-- A write on the deletion record of a key: a recorded repository takes it away. -/
def WriteOp.deletionStands (key : String) (standing : Bool) : WriteOp → Bool
  | .recordRepo domainKey .. => if domainKey = key then false else standing
  | .markRepoDeleted domainKey .. => if domainKey = key then true else standing
  | _ => standing

/-- Whether the key has a deletion record after the writes. -/
def deletionStands (key : String) (standing : Bool) (history : List WriteOp) : Bool :=
  history.foldl (WriteOp.deletionStands key) standing

/-- A key has no evidence beside its deletion record. -/
def RepoSlot.Disjoint (s : RepoSlot) : Prop := s.evidence ≠ none → s.deleted = none

/-- A projection that some events were folded into. -/
def Folded (p : EvidenceProjection) : Prop :=
  ∃ events : List EvidenceProjectionEvent, p = events.foldl EvidenceProjection.apply .default

theorem Folded.disjoint {p : EvidenceProjection} (h : Folded p) (k : String) :
    RepoSlot.Disjoint (p.repoSlot k) := by
  obtain ⟨events, rfl⟩ := h
  exact (repoSlot_exclusive events k).resolve_left

theorem Folded.apply {p : EvidenceProjection} (h : Folded p) (e : EvidenceProjectionEvent) :
    Folded (p.apply e) := by
  obtain ⟨events, rfl⟩ := h
  exact ⟨events ++ [e], by rw [List.foldl_append, List.foldl_cons, List.foldl_nil]⟩

section Fold

variable {R : Runtime} {p : EvidenceProjection}

theorem Folded.foldNativeEvent (h : Folded p) (detached : Bool) (event : DomainEvent) :
    Folded (foldNativeEvent R.calendar p detached event) := by
  cases event with
  | repositoryStateCaptured domainKey repoName timestamp evidence =>
    simp only [Projection.foldNativeEvent]
    exact h.apply _
  | repositoryDeleted domainKey repoName detectedAt =>
    simp only [Projection.foldNativeEvent]
    exact h.apply _
  | orgStateCaptured org =>
    simp only [Projection.foldNativeEvent]
    split
    · exact h
    · exact h.apply _
  | teamStateCaptured team =>
    simp only [Projection.foldNativeEvent]
    exact h.apply _

theorem Folded.fold (h : Folded p) (op : WriteOp) : Folded (op.fold R p) := by
  unfold App.WriteOp.fold
  split
  · exact h.foldNativeEvent _ _
  · exact h

/-- A write that was made moves the deletion record of a key as its operation says. -/
theorem deleted_fold (h : Folded p) {op : WriteOp} {w : Written} (hw : op.written R = .ok w)
    (key : String) : ((op.fold R p).repoSlot key).deleted.isSome =
      WriteOp.deletionStands key (p.repoSlot key).deleted.isSome op := by
  have hfold : op.fold R p = foldNativeEvent R.calendar p w.detached w.event := by
    simp only [App.WriteOp.fold, hw]
  rw [hfold]
  cases op with
  | recordRepo domainKey evidence repoName timestamp =>
    obtain ⟨native, _, hw⟩ := Except.bind_eq_ok_iff.mp hw
    obtain ⟨event, hevent, hw⟩ := Except.bind_eq_ok_iff.mp hw
    obtain ⟨k, n, t, rfl, hk⟩ := repoEvent_ok hevent
    cases hw
    simp only [foldNativeEvent, repoSlot_apply, RepoSlot.step, hk, WriteOp.deletionStands,
      Option.map_some]
    by_cases hkey : domainKey = key
    · simp only [hkey, ne_eq, not_true_eq_false, if_false, if_true, Bool.false_eq_true]
      split
      · rfl
      · next hkept =>
        -- The evidence that is kept is complete, so there is no deletion record beside it.
        have hsome : (p.repoSlot key).evidence ≠ none := by
          intro hnone
          simp [hnone] at hkept
        rw [h.disjoint key hsome]
        rfl
    · simp [hkey]
  | removeRepo domainKey repoName timestamp =>
    obtain ⟨event, hevent, hw⟩ := Except.bind_eq_ok_iff.mp hw
    obtain ⟨k, n, t, rfl, hk⟩ := repoEvent_ok hevent
    cases hw
    simp only [foldNativeEvent, repoSlot_apply, RepoSlot.step, WriteOp.deletionStands]
    split <;> rfl
  | markRepoDeleted domainKey repoName detectedAt =>
    obtain ⟨event, hevent, hw⟩ := Except.bind_eq_ok_iff.mp hw
    obtain ⟨k, n, t, rfl, hk⟩ := deletedRepoEvent_ok hevent
    cases hw
    simp only [foldNativeEvent, repoSlot_apply, RepoSlot.step, hk, WriteOp.deletionStands]
    by_cases hkey : domainKey = key <;> simp [hkey]
  | recordOrg snapshot =>
    obtain ⟨event, _, hw⟩ := Except.bind_eq_ok_iff.mp hw
    cases hw
    simp only [foldNativeEvent, Bool.false_eq_true, if_false, foldOrgEvent, repoSlot_apply]
    rfl
  | recordTeam org roster fetchedAt status =>
    obtain ⟨event, _, hw⟩ := Except.bind_eq_ok_iff.mp hw
    cases hw
    simp only [foldNativeEvent, repoSlot_apply]
    rfl
  | detachTeam org roster fetchedAt status =>
    obtain ⟨event, _, hw⟩ := Except.bind_eq_ok_iff.mp hw
    cases hw
    simp only [foldNativeEvent, repoSlot_apply]
    rfl

theorem deleted_foldl (h : Folded p) {history : List WriteOp}
    (hhistory : ∀ op ∈ history, ∃ w, op.written R = .ok w) (key : String) :
    ((history.foldl (App.WriteOp.fold R) p).repoSlot key).deleted.isSome =
      deletionStands key (p.repoSlot key).deleted.isSome history := by
  induction history generalizing p with
  | nil => rfl
  | cons op history ih =>
    obtain ⟨w, hw⟩ := hhistory op List.mem_cons_self
    rw [List.foldl_cons, ih (h.fold op) fun op' hop' => hhistory op' (List.mem_cons_of_mem _ hop'),
      deleted_fold h hw]
    rfl

end Fold

/-! ## Captures along a run -/

/-- A capture shows the projection that the writes made by then left, and its deleted keys. -/
structure Capture.Faithful (R : Renderer) (p₀ : EvidenceProjection) (source : ℕ) (c : Capture) :
    Prop where
  origin : c.snapshot.token.source = source
  deletedKeys : c.snapshot.token.deletedKeys = c.snapshot.projection.deleted.keys
  projection : c.snapshot.projection = c.history.foldl (App.WriteOp.fold R.toRuntime) p₀
  written : ∀ op ∈ c.history, ∃ w, op.written R.toRuntime = .ok w

/-- The projection of the publisher is the fold of its writes, and its captures are faithful. -/
structure Tracked (R : Renderer) (p₀ : EvidenceProjection) (source : ℕ) (p : Publisher) :
    Prop where
  origin : p.source = source
  projection : p.app.projectionState.value = p.history.foldl (App.WriteOp.fold R.toRuntime) p₀
  written : ∀ op ∈ p.history, ∃ w, op.written R.toRuntime = .ok w
  captures : ∀ c ∈ p.captures, Capture.Faithful R p₀ source c

section Tracked

variable {R : Renderer} {p₀ : EvidenceProjection} {source : ℕ} {p : Publisher}

theorem Tracked.boot (app : AppState) :
    Tracked R app.projectionState.value source (.boot app source) := by
  constructor
  · rfl
  · rfl
  · intro op hop
    cases hop
  · intro c hc
    cases hc

theorem Tracked.commit (h : Tracked R p₀ source p) (candidate : PublicationCandidate) :
    Tracked R p₀ source (p.commit candidate) :=
  ⟨h.origin, h.projection, h.written, h.captures⟩

theorem Tracked.commitTerminal (h : Tracked R p₀ source p) (candidate : PublicationCandidate) :
    Tracked R p₀ source (p.commitTerminalPublication candidate) := by
  unfold commitTerminalPublication
  split
  · exact h
  · exact h.commit candidate

theorem Tracked.write (h : Tracked R p₀ source p) (op : WriteOp) (fates : Fates) :
    Tracked R p₀ source (p.write R op fates) := by
  have hw := step_wrote R.toRuntime fates op p.app
  unfold Publisher.write
  generalize (App.machine R.toRuntime).step p.app (op, fates) = x at hw ⊢
  obtain ⟨answer, app⟩ := x
  simp only at hw
  cases hw with
  | closed hs he => exact ⟨h.origin, h.projection, h.written, h.captures⟩
  | applied hs hdone =>
    refine ⟨h.origin, ?_, ?_, h.captures⟩
    · rw [List.foldl_append, List.foldl_cons, List.foldl_nil, ← h.projection]
      exact fold_of_done hdone
    · intro op' hop'
      rcases List.mem_append.mp hop' with hop' | hop'
      · exact h.written op' hop'
      · obtain rfl := List.mem_singleton.mp hop'
        obtain ⟨w, hw, _⟩ := hdone
        exact ⟨w, hw⟩
  | refused hs he => exact ⟨h.origin, h.projection, h.written, h.captures⟩
  | lost hs hstop hclosed hprojection =>
    exact ⟨h.origin, by rw [hprojection]; exact h.projection, h.written, h.captures⟩

theorem Tracked.capture (h : Tracked R p₀ source p) :
    Tracked R p₀ source p.projectionRenderSnapshot := by
  unfold projectionRenderSnapshot
  split
  · exact h
  · split
    · exact h
    · refine ⟨h.origin, h.projection, h.written, ?_⟩
      intro c hc
      rcases List.mem_append.mp hc with hc | hc
      · exact h.captures c hc
      · obtain rfl := List.mem_singleton.mp hc
        exact ⟨h.origin, rfl, h.projection, h.written⟩

theorem Tracked.step (h : Tracked R p₀ source p) (i : PublisherInput) :
    Tracked R p₀ source (p.step R i) := by
  cases i with
  | write op fates => exact h.write op fates
  | capture => exact h.capture
  | observeLive rosters =>
    simp only [Publisher.step, observeLive]
    split
    · exact h
    · exact ⟨h.origin, h.projection, h.written, h.captures⟩
  | warmStart n =>
    simp only [Publisher.step]
    split
    · exact h
    · split
      · exact h
      · exact h.commit _
  | partialRender n inventory runTimestamp =>
    simp only [Publisher.step]
    split
    · exact h
    · exact h.commit _
  | finalize n inventory runTimestamp observation =>
    simp only [Publisher.step]
    split
    · exact h
    · exact h.commitTerminal _
    · split
      · exact h
      · exact h.commitTerminal _

theorem Tracked.after (app : AppState) (is : List PublisherInput) :
    Tracked R app.projectionState.value source ((machine R).after (.boot app source) is) :=
  Machine.invariant (I := Tracked R app.projectionState.value source)
    (fun _ i h => h.step i) (.boot app) is

/-- The capture witnesses the deletion of a key exactly when its deletion record stands. -/
theorem Capture.Faithful.witnessesDeletion_iff {c : Capture} (h : Capture.Faithful R p₀ source c)
    (hp₀ : Folded p₀) (key : String) :
    c.snapshot.token.witnessesDeletion key = true ↔
      deletionStands key (p₀.deleted.contains key) c.history = true := by
  have hstanding : (p₀.repoSlot key).deleted.isSome = p₀.deleted.contains key := by
    simp [repoSlot]
  rw [← hstanding, ← deleted_foldl hp₀ h.written, ← h.projection,
    ProjectionCaptureToken.witnessesDeletion, h.deletedKeys, List.contains_iff_mem,
    Std.ExtTreeMap.mem_keys, repoSlot]
  exact Std.ExtTreeMap.mem_iff_isSome_getElem?

end Tracked

/-! ## Admission of a newer capture -/

/-- A candidate with a complete inventory, rendered from the capture alone. -/
inductive Renders (R : Renderer) (c : Capture) : PublicationCandidate → Prop where
  | partialRender {inventory : AdmittedInventory} (h : inventory.complete = true)
      (runTimestamp : String) :
      Renders R c (partialRenderOnce R c.snapshot inventory runTimestamp)
  | finalize {inventory : AdmittedInventory} (h : inventory.complete = true)
      (runTimestamp : String) :
      Renders R c (finalizeAndPublish R c.snapshot inventory runTimestamp none)

/-- `candidate`, of the capture `new`, meets a protected report `d` of a capture not later. -/
structure Succession (R : Renderer) (p : Publisher) (d candidate : PublicationCandidate)
    (old new : Capture) : Prop where
  displayed : p.displayed = some d
  stage : d.stage ≠ .warmStart
  old_mem : old ∈ p.captures
  new_mem : new ∈ p.captures
  token : d.quality.provenance.token = some old.snapshot.token
  notLater : old.snapshot.token.sequence ≤ new.snapshot.token.sequence
  renders : Renders R new candidate

theorem Renders.provenance {R : Renderer} {c : Capture} {candidate : PublicationCandidate}
    (h : Renders R c candidate) :
    candidate.quality.provenance = .projection c.snapshot.token ∧
      candidate.quality.inventoryKnown = true := by
  cases h with
  | partialRender h runTimestamp => exact ⟨rfl, h⟩
  | finalize h runTimestamp => exact ⟨rfl, h⟩

/--
What is missing from the candidate was deleted, with the record standing: a report of a live
observation must show no roster at all.
-/
structure Accounted (p₀ : EvidenceProjection) (d candidate : PublicationCandidate)
    (old new : Capture) : Prop where
  provenance : d.quality.provenance = .projection old.snapshot.token ∨
    ∀ owner, ¬ Shows d.quality.rosters owner
  repositories : ∀ key, Shows d.quality.repositories key →
    Keeps candidate.quality.repositories d.quality.repositories key ∨
      ¬ Shows candidate.quality.repositories key ∧
        deletionStands key (p₀.deleted.contains key) new.history = true
  rosters : ∀ owner, Keeps candidate.quality.rosters d.quality.rosters owner

theorem isCurrent_iff {p : Publisher} {d : PublicationCandidate} (hd : p.displayed = some d)
    (hstage : d.stage ≠ .warmStart) (candidate : PublicationCandidate) :
    (commitCachedPages p.publication candidate).isCurrent = true ↔
      candidate.quality.preserves d.quality = true := by
  obtain ⟨publication, hpublication, rfl⟩ := Option.map_eq_some_iff.mp hd
  rw [hpublication]
  simp only [commitCachedPages]
  split
  · next h => simp [AdmittedPublication.isCurrent, h.2]
  · next h =>
    rw [not_and, Bool.not_eq_false] at h
    simp [AdmittedPublication.isCurrent, h hstage]

theorem isEmpty_iff_not_shows {T : Type} {entries : KeyMap (ProtectedEntry T)} :
    entries.isEmpty = true ↔ ∀ key, ¬ Shows entries key := by
  rw [Std.ExtTreeMap.isEmpty_iff, Std.ExtTreeMap.eq_empty_iff_forall_not_mem]
  refine forall_congr' fun key => not_congr ?_
  rw [Std.ExtTreeMap.mem_iff_isSome_getElem?, Option.isSome_iff_exists, Shows]

/--
Removals and publication. In every reachable state, a report of a newer capture with a complete
inventory is admitted exactly when everything it misses was deleted, the record still standing.
-/
theorem newer_capture_admitted_iff (R : Renderer) (app : AppState) (source : ℕ)
    (happ : Folded app.projectionState.value) (is : List PublisherInput)
    {d candidate : PublicationCandidate} {old new : Capture}
    (h : Succession R ((machine R).after (.boot app source) is) d candidate old new) :
    (commitCachedPages ((machine R).after (.boot app source) is).publication candidate).isCurrent =
        true ↔
      Accounted app.projectionState.value d candidate old new := by
  have htracked : Tracked R app.projectionState.value source _ := Tracked.after app is
  have hnew := htracked.captures new h.new_mem
  have hsource : new.snapshot.token.source = old.snapshot.token.source :=
    hnew.origin.trans (htracked.captures old h.old_mem).origin.symm
  obtain ⟨hprovenance, hknown⟩ := h.renders.provenance
  have hexcuses : ∀ key, candidate.quality.Excuses key ↔
      ¬ Shows candidate.quality.repositories key ∧
        deletionStands key (app.projectionState.value.deleted.contains key) new.history = true := by
    intro key
    rw [PublicationQuality.Excuses, PublicationQuality.witnessesDeletion, hprovenance,
      ← hnew.witnessesDeletion_iff happ key]
    rfl
  have hordering := PublicationQuality.ordering_of_projection hprovenance h.token
    (PublicationQuality.succeeds_iff.mpr ⟨hsource, h.notLater⟩)
  rw [isCurrent_iff h.displayed h.stage]
  constructor
  · intro hpreserves
    obtain ⟨-, -, hrepositories, hrosters⟩ := PublicationQuality.preserves_keeps hpreserves
    refine ⟨?_, fun key hkey => ?_, hrosters⟩
    · rcases hordering with ⟨hprojection, -⟩ | ⟨-, hordering⟩
      · exact .inl hprojection
      · obtain ⟨o, ho, -⟩ := PublicationQuality.preserves_iff.mp hpreserves
        right
        rw [hordering] at ho
        split at ho
        · next hempty => exact isEmpty_iff_not_shows.mp hempty
        · cases ho
    · exact (hrepositories key hkey).imp_right (hexcuses key).mp
  · intro haccounted
    have hrepositories : ∀ key, Shows d.quality.repositories key →
        Keeps candidate.quality.repositories d.quality.repositories key ∨
          candidate.quality.Excuses key := fun key hkey =>
      (haccounted.repositories key hkey).imp_right (hexcuses key).mpr
    rcases hordering with ⟨-, hordering⟩ | ⟨hne, hordering⟩
    · exact PublicationQuality.preserves_of_ordered hordering hknown hrepositories
        (fun _ _ => rfl) haccounted.rosters
    · rcases haccounted.provenance with hprojection | hnone
      · exact absurd hprojection hne
      · rw [if_pos (isEmpty_iff_not_shows.mpr hnone)] at hordering
        exact PublicationQuality.preserves_of_ordered hordering hknown hrepositories
          (fun owner howner => absurd howner (hnone owner)) haccounted.rosters

/-! ## A removal that freezes the report -/

/-- A write that removes the repository `key`. -/
def Removes (key : String) : WriteOp → Prop
  | .removeRepo domainKey .. | .markRepoDeleted domainKey .. => domainKey = key
  | _ => False

/-- A write that detaches the team with the key `owner`. -/
def Detaches (R : Runtime) (owner : String) : WriteOp → Prop
  | .detachTeam org roster fetchedAt status =>
    ∃ w, (WriteOp.detachTeam org roster fetchedAt status).written R = .ok w ∧ w.domainKey = owner
  | _ => False

/-- What is missing from the candidate was removed between the two captures. -/
structure Legitimate (R : Renderer) (d candidate : PublicationCandidate) (old new : Capture) :
    Prop where
  repositories : ∀ key, Shows d.quality.repositories key →
    Keeps candidate.quality.repositories d.quality.repositories key ∨
      ∃ op ∈ new.history.drop old.history.length, Removes key op
  rosters : ∀ owner, Shows d.quality.rosters owner →
    Keeps candidate.quality.rosters d.quality.rosters owner ∨
      ∃ op ∈ new.history.drop old.history.length, Detaches R.toRuntime owner op

/-- The sample repository is removed, and the next capture is taken. -/
def sampleRemoved : Publisher := sampleAfter (sampleObserved ++ [sampleRemoveRepo, .capture])

theorem shows_sampleRemoved {d : PublicationCandidate} (hd : sampleRemoved.displayed = some d) :
    (∀ key, Shows d.quality.repositories key → key = "key") ∧
      ∀ owner, ¬ Shows d.quality.rosters owner := by
  have hkeys : sampleRemoved.displayed.map (fun d =>
      (d.quality.repositories.keys, d.quality.rosters.keys)) = some (["key"], []) := by
    decide +kernel
  rw [hd, Option.map_some, Option.some.injEq, Prod.mk.injEq] at hkeys
  have hmem : ∀ {T : Type} {entries : KeyMap T} {key : String} {value : T},
      entries[key]? = some value → key ∈ entries.keys := by
    intro T entries key value hvalue
    rw [Std.ExtTreeMap.mem_keys, Std.ExtTreeMap.mem_iff_isSome_getElem?, hvalue]
    rfl
  constructor
  · rintro key ⟨entry, hentry⟩
    have hkey := hmem hentry
    rw [hkeys.1] at hkey
    exact List.mem_singleton.mp hkey
  · rintro owner ⟨entry, hentry⟩
    have howner := hmem hentry
    rw [hkeys.2] at howner
    cases howner

/-- The displayed report of the sample and its two captures. -/
theorem sampleRemoved_succession : ∃ d old new,
    Succession sampleRenderer sampleRemoved d
        (partialRenderOnce sampleRenderer new.snapshot (sampleInventory true) sampleTimestamp)
        old new ∧
      d.quality.provenance = .projection old.snapshot.token ∧
      new.history.drop old.history.length = [.removeRepo "key" "key" sampleTimestamp] ∧
      (commitCachedPages sampleRemoved.publication (partialRenderOnce sampleRenderer new.snapshot
        (sampleInventory true) sampleTimestamp)).isCurrent = false := by
  have hfacts : (do
      let d ← sampleRemoved.displayed
      let old ← sampleRemoved.captures[0]?
      let new ← sampleRemoved.captures[1]?
      let candidate :=
        partialRenderOnce sampleRenderer new.snapshot (sampleInventory true) sampleTimestamp
      some (d.stage, decide (d.quality.provenance = .projection old.snapshot.token),
        decide (old.snapshot.token.sequence ≤ new.snapshot.token.sequence),
        (commitCachedPages sampleRemoved.publication candidate).isCurrent)) =
      some (.intermediate, true, true, false) := by
    decide +kernel
  obtain ⟨d, hd, hfacts⟩ := Option.bind_eq_some_iff.mp hfacts
  obtain ⟨old, hold, hfacts⟩ := Option.bind_eq_some_iff.mp hfacts
  obtain ⟨new, hnew, hfacts⟩ := Option.bind_eq_some_iff.mp hfacts
  simp only [Option.some.injEq, Prod.mk.injEq, decide_eq_true_eq] at hfacts
  obtain ⟨hstage, hprovenance, hle, hretained⟩ := hfacts
  refine ⟨d, old, new, ⟨hd, ?_, List.mem_of_getElem? hold, List.mem_of_getElem? hnew, ?_, hle,
    .partialRender rfl _⟩, hprovenance, ?_, hretained⟩
  · rw [hstage]
    nofun
  · rw [hprovenance]
    rfl
  · have hhistory : (sampleRemoved.captures[0]?.map Capture.history,
        sampleRemoved.captures[1]?.map Capture.history) =
        (some [.recordRepo "key" (sampleEvidence "key" true) "key" sampleTimestamp],
          some [.recordRepo "key" (sampleEvidence "key" true) "key" sampleTimestamp,
            .removeRepo "key" "key" sampleTimestamp]) := rfl
    rw [hold, hnew, Option.map_some, Option.map_some, Prod.mk.injEq, Option.some.injEq,
      Option.some.injEq] at hhistory
    rw [hhistory.1, hhistory.2]
    rfl

/-- A repository that was removed, not deleted, keeps the earlier report on display. -/
theorem removed_repository_freezes_report :
    ¬ ∀ (R : Renderer) (app : AppState) (source : ℕ), Folded app.projectionState.value →
      ∀ (is : List PublisherInput) (d candidate : PublicationCandidate) (old new : Capture),
        Succession R ((machine R).after (.boot app source) is) d candidate old new →
        Legitimate R d candidate old new →
        (commitCachedPages ((machine R).after (.boot app source) is).publication
          candidate).isCurrent = true := by
  intro hclaim
  obtain ⟨d, old, new, hsuccession, -, hsince, hretained⟩ := sampleRemoved_succession
  obtain ⟨hkey, hrosters⟩ := shows_sampleRemoved hsuccession.displayed
  have hcurrent := hclaim sampleRenderer .empty 0 ⟨[], rfl⟩ _ d _ old new hsuccession
    { repositories := by
        intro key hshows
        right
        rw [hsince, hkey key hshows]
        exact ⟨_, List.mem_singleton_self _, rfl⟩
      rosters := fun owner hshows => absurd hshows (hrosters owner) }
  rw [sampleRemoved, sampleAfter] at hretained
  rw [hretained] at hcurrent
  cases hcurrent

/-- The report that misses the removed repository is refused: the removal is not accounted for. -/
theorem newer_capture_admitted_iff_removed :
    ∃ d candidate old new, Succession sampleRenderer sampleRemoved d candidate old new ∧
      ¬ Accounted AppState.empty.projectionState.value d candidate old new := by
  obtain ⟨d, old, new, hsuccession, -, -, hretained⟩ := sampleRemoved_succession
  refine ⟨d, _, old, new, hsuccession, fun haccounted => ?_⟩
  have hcurrent := (newer_capture_admitted_iff sampleRenderer .empty 0 ⟨[], rfl⟩ _
    hsuccession).mpr haccounted
  rw [sampleRemoved, sampleAfter] at hretained
  rw [hretained] at hcurrent
  cases hcurrent

end GhReport.Publication
