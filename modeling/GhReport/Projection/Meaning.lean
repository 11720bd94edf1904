import GhReport.Projection.Slots
import Mathlib.Data.List.DropRight
import Mathlib.Data.List.Induction

/-! # What the projection means

A fold keeps the two sides of each slot apart, and what it leaves in a slot is
told by the events of that slot alone: the latest value after the last removal.
-/

namespace GhReport.Projection

open Domain Event Upsert EvidenceProjection

/-! ## Disjointness -/

/-- A repository slot has evidence or a deletion record, not both. -/
def RepoSlot.Exclusive (s : RepoSlot) : Prop := s.evidence = none ∨ s.deleted = none

/-- A team slot has a live roster or a ghost, not both, and the ghost says that it is deleted. -/
structure TeamSlot.Exclusive (s : TeamSlot) : Prop where
  apart : s.roster = none ∨ s.ghost = none
  deleted : ∀ r, s.ghost = some r → r.status = .deleted

theorem RepoSlot.Exclusive.step {s : RepoSlot} (h : s.Exclusive) (k : String)
    (e : EvidenceProjectionEvent) : (s.step k e).Exclusive := by
  cases e with
  | repositoryStateCaptured detached key evidence =>
    simp only [RepoSlot.step]
    split
    · exact h
    · split
      · exact .inl rfl
      · split
        · exact h
        · split
          · exact .inr rfl
          · exact h
  | repositoryDeleted key repoName detectedAt =>
    simp only [RepoSlot.step]
    split
    · exact h
    · exact .inl rfl
  | orgStateCaptured snapshot => exact h
  | teamStateCaptured detached key roster => exact h

theorem TeamSlot.Exclusive.step {s : TeamSlot} (h : s.Exclusive) (k : String)
    (e : EvidenceProjectionEvent) : (s.step k e).Exclusive := by
  cases e with
  | teamStateCaptured detached key roster =>
    simp only [TeamSlot.step]
    split
    · exact h
    · split
      · refine ⟨.inl rfl, fun r hr => ?_⟩
        simpa using (Option.filter_eq_some_iff.mp hr).2
      · split
        · exact h
        · exact ⟨.inr rfl, fun _ hghost => by cases hghost⟩
  | repositoryStateCaptured detached key evidence => exact h
  | repositoryDeleted key repoName detectedAt => exact h
  | orgStateCaptured snapshot => exact h

/-! ## Folds of slots -/

theorem repoSlot_foldl (events : List EvidenceProjectionEvent) (p : EvidenceProjection)
    (k : String) :
    (events.foldl apply p).repoSlot k = events.foldl (RepoSlot.step k) (p.repoSlot k) :=
  (List.foldl_hom (fun p => repoSlot p k) fun p e => (repoSlot_apply p e k).symm).symm

theorem teamSlot_foldl (events : List EvidenceProjectionEvent) (p : EvidenceProjection)
    (k : String) :
    (events.foldl apply p).teamSlot k = events.foldl (TeamSlot.step k) (p.teamSlot k) :=
  (List.foldl_hom (fun p => teamSlot p k) fun p e => (teamSlot_apply p e k).symm).symm

theorem orgState_foldl (events : List EvidenceProjectionEvent) (p : EvidenceProjection) :
    (events.foldl apply p).orgState = events.foldl orgStep p.orgState :=
  (List.foldl_hom orgState fun p e => (orgState_apply p e).symm).symm

theorem repoSlot_exclusive (events : List EvidenceProjectionEvent) (k : String) :
    ((events.foldl apply .default).repoSlot k).Exclusive := by
  rw [repoSlot_foldl]
  have hstart : (repoSlot .default k).Exclusive :=
    .inl (by simp [repoSlot, EvidenceProjection.default])
  generalize repoSlot .default k = s at hstart
  induction events generalizing s with
  | nil => exact hstart
  | cons e events ih => exact ih _ (hstart.step k e)

theorem teamSlot_exclusive (events : List EvidenceProjectionEvent) (k : String) :
    ((events.foldl apply .default).teamSlot k).Exclusive := by
  rw [teamSlot_foldl]
  have hstart : (teamSlot .default k).Exclusive :=
    ⟨.inl (by simp [teamSlot, EvidenceProjection.default]),
      by simp [teamSlot, EvidenceProjection.default]⟩
  generalize teamSlot .default k = s at hstart
  induction events generalizing s with
  | nil => exact hstart
  | cons e events ih => exact ih _ (hstart.step k e)

/--
Whatever is folded, no key has evidence and a deletion record, none has a live roster and a ghost,
and ghosts are deleted.
-/
theorem projection_disjoint (events : List EvidenceProjectionEvent) :
    let p := events.foldl apply .default
    (∀ k : String, ¬ (k ∈ p.repositories ∧ k ∈ p.deleted)) ∧
      (∀ k : String, ¬ (k ∈ p.teamRosters ∧ k ∈ p.teamGhostRosters)) ∧
      ∀ (k : String) (r : TeamRoster), p.teamGhostRosters[k]? = some r → r.status = .deleted := by
  intro p
  refine ⟨?_, ?_, ?_⟩
  · rintro k ⟨hrepo, hdeleted⟩
    rw [Std.ExtTreeMap.mem_iff_isSome_getElem?] at hrepo hdeleted
    rcases repoSlot_exclusive events k with h | h
    · exact absurd hrepo (by rw [show p.repositories[k]? = none from h]; nofun)
    · exact absurd hdeleted (by rw [show p.deleted[k]? = none from h]; nofun)
  · rintro k ⟨hroster, hghost⟩
    rw [Std.ExtTreeMap.mem_iff_isSome_getElem?] at hroster hghost
    rcases (teamSlot_exclusive events k).apart with h | h
    · exact absurd hroster (by rw [show p.teamRosters[k]? = none from h]; nofun)
    · exact absurd hghost (by rw [show p.teamGhostRosters[k]? = none from h]; nofun)
  · intro k r hr
    exact (teamSlot_exclusive events k).deleted r hr

/-! ## The meaning of a fold -/

/-- What an event is about. -/
inductive Slot where
  | repository (key : String)
  | team (key : String)
  | org
deriving DecidableEq

namespace EvidenceProjectionEvent

def slot : EvidenceProjectionEvent → Slot
  | repositoryStateCaptured _ key _ => .repository key
  | repositoryDeleted key .. => .repository key
  | orgStateCaptured _ => .org
  | teamStateCaptured _ key _ => .team key

/-- The event removes the evidence of its repository: a detached capture or a deletion. -/
def removes : EvidenceProjectionEvent → Bool
  | repositoryStateCaptured detached .. => detached
  | repositoryDeleted .. => true
  | _ => false

/-- The evidence of a capture that is not detached. -/
def captured : EvidenceProjectionEvent → Option Domain.RepositoryEvidence
  | repositoryStateCaptured false _ evidence => evidence
  | _ => none

end EvidenceProjectionEvent

/-- The events of a slot, in their order. -/
def history (slot : Slot) (events : List EvidenceProjectionEvent) :
    List EvidenceProjectionEvent :=
  events.filter fun e => e.slot = slot

/-- The captures of a repository after its last removal. -/
def standingCaptures (key : String) (events : List EvidenceProjectionEvent) :
    List Domain.RepositoryEvidence :=
  ((history (.repository key) events).rtakeWhile fun e => !e.removes).filterMap
    EvidenceProjectionEvent.captured

section Meaning

variable {events events' : List EvidenceProjectionEvent}

/-- Steps that change nothing can be left out of a fold. -/
theorem foldl_filter_of_eq {σ α : Type} {step : σ → α → σ} {p : α → Bool}
    (h : ∀ s a, p a = false → step s a = s) (l : List α) (s : σ) :
    (l.filter p).foldl step s = l.foldl step s := by
  induction l generalizing s with
  | nil => rfl
  | cons a l ih =>
    cases hp : p a with
    | true => rw [List.filter_cons_of_pos hp, List.foldl_cons, List.foldl_cons, ih]
    | false =>
      rw [List.filter_cons_of_neg (by rw [hp]; exact Bool.false_ne_true), List.foldl_cons,
        h s a hp, ih]

theorem repoStep_of_other {key : String} (s : RepoSlot) {e : EvidenceProjectionEvent}
    (h : e.slot ≠ .repository key) : s.step key e = s := by
  cases e with
  | repositoryStateCaptured detached key' evidence =>
    exact if_pos fun hkey => h (congrArg Slot.repository hkey)
  | repositoryDeleted key' repoName detectedAt =>
    exact if_pos fun hkey => h (congrArg Slot.repository hkey)
  | orgStateCaptured snapshot => rfl
  | teamStateCaptured detached key' roster => rfl

theorem teamStep_of_other {key : String} (s : TeamSlot) {e : EvidenceProjectionEvent}
    (h : e.slot ≠ .team key) : s.step key e = s := by
  cases e with
  | teamStateCaptured detached key' roster =>
    exact if_pos fun hkey => h (congrArg Slot.team hkey)
  | repositoryStateCaptured detached key' evidence => rfl
  | repositoryDeleted key' repoName detectedAt => rfl
  | orgStateCaptured snapshot => rfl

theorem orgStep_of_other (s : Option OrgReadModel) {e : EvidenceProjectionEvent}
    (h : e.slot ≠ .org) : orgStep s e = s := by
  cases e with
  | orgStateCaptured snapshot => exact absurd rfl h
  | repositoryStateCaptured detached key evidence => rfl
  | repositoryDeleted key repoName detectedAt => rfl
  | teamStateCaptured detached key roster => rfl

theorem repoSlot_history (events : List EvidenceProjectionEvent) (p : EvidenceProjection)
    (key : String) :
    (events.foldl apply p).repoSlot key =
      (history (.repository key) events).foldl (RepoSlot.step key) (p.repoSlot key) := by
  rw [repoSlot_foldl, history, foldl_filter_of_eq]
  intro s e he
  exact repoStep_of_other s (of_decide_eq_false he)

/-- Logs with the same history in every slot leave the same projection. -/
theorem foldl_eq_of_history (h : ∀ slot, history slot events = history slot events')
    (p : EvidenceProjection) : events.foldl apply p = events'.foldl apply p := by
  apply ext_slots
  · intro key
    rw [repoSlot_history, repoSlot_history, h]
  · rw [orgState_foldl, orgState_foldl,
      ← foldl_filter_of_eq (p := fun e => e.slot = .org)
        (fun s e he => orgStep_of_other s (of_decide_eq_false he)) events,
      ← foldl_filter_of_eq (p := fun e => e.slot = .org)
        (fun s e he => orgStep_of_other s (of_decide_eq_false he)) events']
    exact congrArg (List.foldl orgStep p.orgState) (h .org)
  · intro key
    rw [teamSlot_foldl, teamSlot_foldl,
      ← foldl_filter_of_eq (p := fun e => e.slot = .team key)
        (fun s e he => teamStep_of_other s (of_decide_eq_false he)) events,
      ← foldl_filter_of_eq (p := fun e => e.slot = .team key)
        (fun s e he => teamStep_of_other s (of_decide_eq_false he)) events']
    exact congrArg (List.foldl (TeamSlot.step key) _) (h (.team key))

/-- One event of a repository, on its evidence. -/
theorem evidence_step {key : String} (s : RepoSlot) {e : EvidenceProjectionEvent}
    (h : e.slot = .repository key) :
    (s.step key e).evidence = if e.removes then none
      else e.captured.elim s.evidence (keep RepositoryEvidence.isComplete s.evidence) := by
  cases e with
  | repositoryStateCaptured detached key' evidence =>
    obtain rfl : key' = key := Slot.repository.inj h
    cases detached with
    | true => simp [RepoSlot.step, EvidenceProjectionEvent.removes]
    | false =>
      cases evidence with
      | none => simp [RepoSlot.step, EvidenceProjectionEvent.removes,
          EvidenceProjectionEvent.captured]
      | some v =>
        simp only [RepoSlot.step, EvidenceProjectionEvent.removes, Bool.false_eq_true, if_false,
          ne_eq, not_true_eq_false, EvidenceProjectionEvent.captured, Option.elim_some]
        cases hguard : !s.evidence.any RepositoryEvidence.isComplete || v.isComplete with
        | true =>
          rw [if_pos rfl, keep_of_guard _ hguard]
        | false =>
          rw [if_neg Bool.false_ne_true, keep_of_not_guard _ hguard]
  | repositoryDeleted key' repoName detectedAt =>
    obtain rfl : key' = key := Slot.repository.inj h
    simp [RepoSlot.step, EvidenceProjectionEvent.removes]
  | orgStateCaptured snapshot => cases h
  | teamStateCaptured detached key' roster => cases h

theorem evidence_foldl {key : String} {events : List EvidenceProjectionEvent}
    (h : ∀ e ∈ events, e.slot = .repository key) {s : RepoSlot} (hs : s.evidence = none) :
    (events.foldl (RepoSlot.step key) s).evidence = keepAll RepositoryEvidence.isComplete none
      ((events.rtakeWhile fun e => !e.removes).filterMap EvidenceProjectionEvent.captured) := by
  induction events using List.reverseRecOn with
  | nil => exact hs
  | append_singleton events e ih =>
    have hevents := ih fun e' he' => h e' (List.mem_append_left _ he')
    rw [List.foldl_append, List.foldl_cons, List.foldl_nil,
      evidence_step _ (h e (by simp)), List.rtakeWhile_concat]
    cases e.removes with
    | true => rfl
    | false =>
      rw [if_neg Bool.false_ne_true, Bool.not_false, if_pos rfl, List.filterMap_append,
        keepAll_append, ← hevents]
      cases hcaptured : e.captured with
      | none => simp [hcaptured]
      | some v => simp [hcaptured]

/-- After the last removal of a repository its last complete capture stands, else its last one. -/
theorem repositories_foldl (events : List EvidenceProjectionEvent) (key : String) :
    (events.foldl apply .default).repositories[key]? =
      latest RepositoryEvidence.isComplete (standingCaptures key events) := by
  have hslot := congrArg RepoSlot.evidence (repoSlot_history events .default key)
  have hstart : (repoSlot .default key).evidence = none := by
    simp [repoSlot, EvidenceProjection.default]
  have hown : ∀ e ∈ history (.repository key) events, e.slot = .repository key := fun e he =>
    of_decide_eq_true (List.mem_filter.mp he).2
  rw [evidence_foldl hown hstart, keepAll_none] at hslot
  exact hslot

end Meaning

/--
The entry of a repository is told by its own events, and two logs with the same events in each
slot, in the same order, leave the same projection.
-/
theorem projection_meaning (events : List EvidenceProjectionEvent) :
    (∀ key : String, (events.foldl apply .default).repositories[key]? =
        latest RepositoryEvidence.isComplete (standingCaptures key events)) ∧
      (∀ key e before after, e.slot ≠ .repository key → events = before ++ e :: after →
        (events.foldl apply .default).repoSlot key =
          ((before ++ after).foldl apply .default).repoSlot key) ∧
      ∀ events', (∀ slot, history slot events = history slot events') →
        events.foldl apply .default = events'.foldl apply .default := by
  refine ⟨repositories_foldl events, ?_, ?_⟩
  · rintro key e before after he rfl
    rw [repoSlot_history, repoSlot_history, history, history, List.filter_append,
      List.filter_append, List.filter_cons_of_neg (by simpa using he)]
  · intro events' h
    exact foldl_eq_of_history h .default

end GhReport.Projection
