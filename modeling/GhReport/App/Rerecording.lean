import GhReport.App.Evidence
import GhReport.App.Restart
import GhReport.Event.Identity
import Mathlib.Data.List.Induction

/-! # Evidence recorded again

The evidence of a projection is that of an event, which a replay folded or a write of
this process wrote. Recording it again writes the same event.
-/

namespace GhReport.App

open Domain Event Projection EvidenceProjection

/-- The projection of a replay. -/
def folded (C : Calendar) (events : List (Bool × DomainEvent)) : EvidenceProjection :=
  events.foldl (fun p entry => foldNativeEvent C p entry.1 entry.2) .default

/-- The event put the evidence under the key, and recording the evidence writes the event. -/
def Rerecords (R : Runtime) (k : String) (e : Domain.RepositoryEvidence) (event : DomainEvent) :
    Prop :=
  ∃ key repoName timestamp native,
    event = .repositoryStateCaptured key repoName timestamp (some native) ∧ key.text = k ∧
      e = native.toDomain R.calendar ∧
      (WriteOp.recordRepo k e repoName.text (tsToString R.calendar timestamp)).written R =
        .ok ⟨false, k, event⟩

variable {R : Runtime} {k : String} {e : Domain.RepositoryEvidence}

theorem written_rerecorded (hC : R.calendar.Inverts) (key : Pardosa.NonEmptyEventString _)
    (repoName : Pardosa.NonEmptyEventString _) (timestamp : Pardosa.Timestamp)
    (native : Event.RepositoryEvidence) :
    (WriteOp.recordRepo key.text (native.toDomain R.calendar) repoName.text
        (tsToString R.calendar timestamp)).written R =
      .ok ⟨false, key.text, .repositoryStateCaptured key repoName timestamp (some native)⟩ := by
  simp only [WriteOp.written, RepositoryEvidence.tryFrom_toDomain hC, repoEvent, nonEmpty,
    toNes_text, eventTimestamp, tsRequired_tsToString _ hC]
  rfl

/-- Evidence under a key was there before the event, or is the event's. -/
theorem rerecords_fold (hC : R.calendar.Inverts) {p : EvidenceProjection} {detached : Bool}
    {event : DomainEvent}
    (h : (foldNativeEvent R.calendar p detached event).repositories[k]? = some e) :
    p.repositories[k]? = some e ∨ Rerecords R k e event := by
  rw [evidence_foldNativeEvent] at h
  cases event with
  | repositoryStateCaptured key repoName timestamp evidence =>
    simp only [RepoSlot.step] at h
    split at h
    · exact .inl h
    · next hkey =>
      have hkey : key.text = k := Decidable.not_not.mp hkey
      split at h
      · cases h
      · cases evidence with
        | none => exact .inl h
        | some native =>
          simp only [Option.map_some] at h
          split at h
          · cases h
            subst hkey
            exact .inr ⟨key, repoName, timestamp, native, rfl, rfl, rfl,
              written_rerecorded hC key repoName timestamp native⟩
          · exact .inl h
  | repositoryDeleted key repoName detectedAt =>
    dsimp only at h
    split at h
    · cases h
    · exact .inl h
  | orgStateCaptured org => exact .inl h
  | teamStateCaptured team => exact .inl h

theorem rerecords_folded (hC : R.calendar.Inverts) (events : List (Bool × DomainEvent))
    (h : (folded R.calendar events).repositories[k]? = some e) :
    ∃ entry ∈ events, Rerecords R k e entry.2 := by
  induction events using List.reverseRecOn with
  | nil => simp [folded, EvidenceProjection.default] at h
  | append_singleton events entry ih =>
    rw [folded, List.foldl_concat] at h
    rcases rerecords_fold hC h with hbefore | hentry
    · obtain ⟨entry', hmem, hrerecords⟩ := ih hbefore
      exact ⟨entry', List.mem_append_left _ hmem, hrerecords⟩
    · exact ⟨entry, List.mem_append_right _ (List.mem_singleton_self _), hentry⟩

/-- Evidence under a key was there before the write, or is of the event that it wrote. -/
theorem rerecords_step (hC : R.calendar.Inverts) (s : AppState) (i : WriteOp × Fates)
    (h : ((machine R).step s i).2.projectionState.value.repositories[k]? = some e) :
    s.projectionState.value.repositories[k]? = some e ∨
      ∃ w, i.1.written R = .ok w ∧ Rerecords R k e w.event := by
  rcases fold_step (R := R) s i with ⟨-, ⟨w, hw⟩, hfold⟩ | ⟨-, hsame⟩
  · rw [hfold, WriteOp.fold, hw] at h
    rcases rerecords_fold hC h with hbefore | hevent
    · exact .inl hbefore
    · exact .inr ⟨w, hw, hevent⟩
  · rw [hsame] at h
    exact .inl h

theorem rerecords_after (hC : R.calendar.Inverts) {s : AppState} {is : List (WriteOp × Fates)}
    (h : ((machine R).after s is).projectionState.value.repositories[k]? = some e) :
    s.projectionState.value.repositories[k]? = some e ∨
      ∃ i ∈ is, ∃ w, i.1.written R = .ok w ∧ Rerecords R k e w.event := by
  induction is generalizing s with
  | nil => exact .inl h
  | cons i is ih =>
    rcases ih h with hafter | ⟨j, hj, hwritten⟩
    · rcases rerecords_step hC s i hafter with hbefore | hwritten
      · exact .inl hbefore
      · exact .inr ⟨i, List.mem_cons_self, hwritten⟩
    · exact .inr ⟨j, List.mem_cons_of_mem _ hj, hwritten⟩

/--
Conversion of an event's evidence to the domain and back is the identity, and hence recording
again what a projection holds writes the event that it came from, replayed or written since.
-/
theorem conversion_identity (R : Runtime) (hC : R.calendar.Inverts) :
    (∀ native : Event.RepositoryEvidence,
      Event.RepositoryEvidence.tryFrom R.calendar (native.toDomain R.calendar) = .ok native) ∧
    ∀ (events : List (Bool × DomainEvent)) (s : AppState) (is : List (WriteOp × Fates)),
      s.projectionState.value = folded R.calendar events →
      ∀ (k : String) (e : Domain.RepositoryEvidence),
        ((machine R).after s is).projectionState.value.repositories[k]? = some e →
        (∃ entry ∈ events, Rerecords R k e entry.2) ∨
          ∃ i ∈ is, ∃ w, i.1.written R = .ok w ∧ Rerecords R k e w.event := by
  refine ⟨fun native => RepositoryEvidence.tryFrom_toDomain hC native, ?_⟩
  intro events s is hs k e h
  rcases rerecords_after hC h with hbefore | hwritten
  · rw [hs] at hbefore
    exact .inl (rerecords_folded hC events hbefore)
  · exact .inr hwritten

/-! ## A recorded repository -/

section Sample

open Pardosa

def sampleInstant : UInt64 := 1767225600000000000

def sampleText : String := "2026-01-01T00:00:00Z"

def tally (n : ℕ) : String := String.ofList (List.replicate n 'x')

theorem tally_ne_sampleText (n : ℕ) : tally n ≠ sampleText := by
  intro h
  have hlist := congrArg String.toList h
  rw [tally, String.toList_ofList] at hlist
  cases n with
  | zero => cases hlist
  | succ n =>
    rw [List.replicate_succ] at hlist
    have hhead : 'x' = '2' := (List.cons.inj hlist).1
    revert hhead
    decide

/-- A calendar that knows one instant, and counts out every other. -/
def sampleCalendar : Calendar where
  fromNanosecond nanos :=
    if nanos = sampleInstant.toNat then some sampleText else some (tally nanos.toNat)
  parseIso8601 text :=
    if text = sampleText then some sampleInstant.toNat else some text.length

theorem sampleCalendar_inverts : sampleCalendar.Inverts where
  represents nanos := by
    unfold sampleCalendar
    dsimp only
    split
    · exact ⟨_, rfl⟩
    · exact ⟨_, rfl⟩
  parses nanos text h := by
    unfold sampleCalendar at h ⊢
    dsimp only at h ⊢
    split at h
    · next hinstant =>
      cases h
      rw [if_pos rfl, hinstant]
    · cases h
      rw [if_neg (tally_ne_sampleText _), tally, String.length_ofList, List.length_replicate,
        Int.toNat_natCast]

def sampleNative : Event.RepositoryEvidence :=
  let timestamp : Timestamp := ⟨sampleInstant, by decide⟩
  { repository :=
      { id := ⟨"1", by decide, by decide⟩
        nodeId := some ⟨"", by decide⟩
        name := ⟨"name", by decide, by decide⟩
        visibility := .internal
        language := none
        defaultBranch := ⟨"main", by decide, by decide⟩
        archived := false
        inventoryKey := ⟨"1", by decide, by decide⟩
        updatedAt := some ⟨"yesterday", by decide, by decide⟩
        hasIssues := true
        pushedAt := some timestamp
        createdAt := none
        description := none
        fork := false
        isEmpty := false
        htmlUrl := none
        topics := ⟨[⟨"topic", by decide⟩], by decide⟩
        licenseSpdx := none }
    checks :=
      { securityPolicy := .enabledByFile ⟨"SECURITY.md", by decide, by decide⟩ timestamp
        secretScanning := .disabled (some 200) (.statusMismatch .perRepoEndpoint none) timestamp
        dependabotSecurityUpdates := ⟨.unknown, some ⟨"reason", by decide⟩, timestamp⟩
        branchProtection :=
          .unprotected ⟨"main", by decide, by decide⟩ .forcePushAllowed timestamp
        codeowners := .nonConforming .docs (.parsed
          ⟨⟨[⟨⟨"*", by decide⟩, ⟨[⟨"@org/team", by decide⟩], by decide⟩⟩], by decide⟩,
            ⟨[⟨"@org/team", by decide⟩], by decide⟩, 3⟩) timestamp }
    lastCommit := some ⟨none, some ⟨"name", by decide⟩, some timestamp⟩ }

def sampleCaptured : DomainEvent :=
  .repositoryStateCaptured ⟨"1", by decide, by decide⟩ ⟨"name", by decide, by decide⟩
    ⟨sampleInstant, by decide⟩ (some sampleNative)

/-- A start that replays the record of one repository. -/
def sampleReplayed : AppState :=
  { AppState.empty with
    projectionState := ⟨folded sampleCalendar [(false, sampleCaptured)], false⟩ }

theorem conversion_identity_sample :
    Event.RepositoryEvidence.tryFrom sampleCalendar (sampleNative.toDomain sampleCalendar) =
        .ok sampleNative ∧
      Rerecords { sampleRuntime with calendar := sampleCalendar } "1"
        (sampleNative.toDomain sampleCalendar) sampleCaptured := by
  have h := conversion_identity { sampleRuntime with calendar := sampleCalendar }
    sampleCalendar_inverts
  have hheld : sampleReplayed.projectionState.value.repositories["1"]? =
      some (sampleNative.toDomain sampleCalendar) := by
    change (foldNativeEvent sampleCalendar .default false sampleCaptured).repositories["1"]? = _
    rw [evidence_foldNativeEvent]
    simp [sampleCaptured, RepoSlot.step, repoSlot, EvidenceProjection.default]
  refine ⟨h.1 sampleNative, ?_⟩
  rcases h.2 [(false, sampleCaptured)] sampleReplayed [] rfl "1" _ hheld with
    ⟨entry, hentry, hrerecords⟩ | ⟨i, hi, -⟩
  · rwa [List.mem_singleton.mp hentry] at hrerecords
  · cases hi

end Sample

end GhReport.App
