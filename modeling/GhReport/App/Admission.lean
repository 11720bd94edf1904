import GhReport.App.Outcome
import GhReport.Pardosa.Canonical

/-! # The write-admission latch

Over every run of writes, the projection is the fold of the writes that returned
Ok; a write that may be lost closes admission for good; a write that was refused
left everything as it was.
-/

namespace GhReport.App

open Domain Event Pardosa Store Projection

/-- What a write that returned Ok does to the projection. -/
def WriteOp.fold (R : Runtime) (p : EvidenceProjection) (op : WriteOp) : EvidenceProjection :=
  match op.written R with
  | .ok w => foldNativeEvent R.calendar p w.detached w.event
  | .error _ => p

/-- The operations of a run that returned Ok, in order. -/
def returnedOk (trace : List ((WriteOp × Fates) × Except (Stop PersistenceError) Unit)) :
    List WriteOp :=
  trace.filterMap fun entry =>
    match entry.2 with
    | .ok () => some entry.1.1
    | .error _ => none

def Indeterminate (answer : Except (Stop PersistenceError) Unit) : Prop :=
  ∃ e, answer = .error (.error e) ∧ e.isIndeterminate = true

variable {R : Runtime}

theorem fold_of_done {fates : Fates} {op : WriteOp} {s s' : AppState}
    (h : op.Done R fates s s') :
    s'.projectionState.value = op.fold R s.projectionState.value := by
  obtain ⟨w, hw, happlied⟩ := h
  rw [happlied.projection]
  simp only [WriteOp.fold, hw]

/-- A step that answers Ok folds its event; any other leaves the projection alone. -/
theorem fold_step (s : AppState) (i : WriteOp × Fates) :
    (((machine R).step s i).1 = .ok () ∧ (∃ w, i.1.written R = .ok w) ∧
        ((machine R).step s i).2.projectionState.value =
          i.1.fold R s.projectionState.value) ∨
      ((machine R).step s i).1 ≠ .ok () ∧
        ((machine R).step s i).2.projectionState.value = s.projectionState.value := by
  have hw := step_wrote R i.2 i.1 s
  generalize (machine R).step s (i.1, i.2) = x at hw ⊢
  obtain ⟨answer, s'⟩ := x
  change Wrote R i.2 i.1 s answer s' at hw
  cases hw with
  | closed hs he => exact .inr ⟨nofun, rfl⟩
  | refused hs he => exact .inr ⟨nofun, rfl⟩
  | lost hs hstop hclosed hprojection => exact .inr ⟨nofun, congrArg Mutex.value hprojection⟩
  | applied hs hdone =>
    have hfold := fold_of_done hdone
    obtain ⟨w, hw, -⟩ := hdone
    exact .inl ⟨rfl, ⟨w, hw⟩, hfold⟩

/-- One step moves the projection by its operation exactly when it answers Ok. -/
theorem projection_step (s : AppState) (i : WriteOp × Fates) :
    ((machine R).step s i).2.projectionState.value =
      (returnedOk [(i, ((machine R).step s i).1)]).foldl (WriteOp.fold R)
        s.projectionState.value := by
  rcases fold_step (R := R) s i with ⟨hok, -, hfold⟩ | ⟨hnot, hsame⟩
  · rw [hok]
    exact hfold
  · rw [hsame]
    cases hanswer : ((machine R).step s i).1 with
    | ok u => exact absurd hanswer hnot
    | error e => rfl

/-- No write poisons the projection. -/
theorem poisoned_step (s : AppState) (i : WriteOp × Fates) :
    ((machine R).step s i).2.projectionState.poisoned = s.projectionState.poisoned := by
  have hw := step_wrote R i.2 i.1 s
  generalize (machine R).step s (i.1, i.2) = x at hw ⊢
  obtain ⟨answer, s'⟩ := x
  change Wrote R i.2 i.1 s answer s' at hw
  cases hw with
  | closed hs he => rfl
  | applied hs h =>
    obtain ⟨w, -, happlied⟩ := h
    rw [happlied.projection]
  | refused hs he => rfl
  | lost hs hstop hclosed hprojection => exact congrArg Mutex.poisoned hprojection

theorem projection_after (s : AppState) (is : List (WriteOp × Fates)) :
    ((machine R).after s is).projectionState.value =
      (returnedOk ((machine R).trace s is)).foldl (WriteOp.fold R) s.projectionState.value := by
  induction is generalizing s with
  | nil => rfl
  | cons i is ih =>
    have hsplit : returnedOk ((machine R).trace s (i :: is)) =
        returnedOk [(i, ((machine R).step s i).1)] ++
          returnedOk ((machine R).trace ((machine R).step s i).2 is) := by
      simp only [returnedOk, Machine.trace, ← List.filterMap_append, List.singleton_append]
    rw [Machine.after_cons, ih, projection_step, hsplit, List.foldl_append]

/-- Behind a closed slot every write is refused as indeterminate and changes nothing. -/
theorem step_of_closed {s : AppState} (hs : ¬ Admitting s) (i : WriteOp × Fates) :
    Indeterminate ((machine R).step s i).1 ∧ ((machine R).step s i).2 = s := by
  have hw := step_wrote R i.2 i.1 s
  generalize (machine R).step s (i.1, i.2) = x at hw ⊢
  obtain ⟨answer, s'⟩ := x
  change Wrote R i.2 i.1 s answer s' at hw
  cases hw with
  | closed _ he => exact ⟨⟨_, rfl, he⟩, rfl⟩
  | applied h | refused h | lost h => exact absurd h hs

theorem after_of_closed {s : AppState} (hs : ¬ Admitting s) (is : List (WriteOp × Fates)) :
    (machine R).after s is = s := by
  induction is with
  | nil => rfl
  | cons i is ih => rw [Machine.after_cons, (step_of_closed hs i).2, ih]

/-- A write that is not Ok after its primary append, or is indeterminate, closes the slot. -/
theorem closed_of_lost {s : AppState} {i : WriteOp × Fates}
    (h : ((machine R).step s i).1 ≠ .ok () ∧
        ((machine R).step s i).2.eventStore.journal ≠ s.eventStore.journal ∨
      Indeterminate ((machine R).step s i).1) :
    ¬ Admitting ((machine R).step s i).2 := by
  have hw := step_wrote R i.2 i.1 s
  generalize (machine R).step s (i.1, i.2) = x at hw h ⊢
  obtain ⟨answer, s'⟩ := x
  change Wrote R i.2 i.1 s answer s' at hw
  cases hw with
  | closed hs he => exact hs
  | applied hs hdone =>
    rcases h with ⟨hok, _⟩ | ⟨e, he, _⟩
    · exact absurd rfl hok
    · cases he
  | refused hs hdet =>
    rcases h with ⟨_, hjournal⟩ | ⟨e, he, hind⟩
    · exact absurd rfl hjournal
    · cases he
      rw [hdet] at hind
      cases hind
  | lost hs hstop hclosed hprojection => exact hclosed

/-- A determinate error leaves the whole state alone, and admission open. -/
theorem unchanged_of_refused {s : AppState} {i : WriteOp × Fates} {e : PersistenceError}
    (h : ((machine R).step s i).1 = .error (.error e)) (he : e.isIndeterminate = false) :
    ((machine R).step s i).2 = s ∧ Admitting s := by
  have hw := step_wrote R i.2 i.1 s
  generalize (machine R).step s (i.1, i.2) = x at hw h ⊢
  obtain ⟨answer, s'⟩ := x
  change Wrote R i.2 i.1 s answer s' at hw
  change answer = _ at h
  cases hw with
  | applied hs hdone => cases h
  | refused hs _ => exact ⟨rfl, hs⟩
  | closed hs hind =>
    cases h
    rw [he] at hind
    cases hind
  | lost hs hstop _ _ =>
    cases h
    rw [Stop.Lost, he] at hstop
    cases hstop

/-- The write-admission latch, over every run of writes and every fate of their store calls. -/
theorem write_admission_latch (R : Runtime) (s₀ : AppState) (is : List (WriteOp × Fates)) :
    let s := (machine R).after s₀ is
    s.projectionState.value =
        (returnedOk ((machine R).trace s₀ is)).foldl (WriteOp.fold R) s₀.projectionState.value ∧
      (∀ i, let r := (machine R).step s i
        (r.1 ≠ .ok () ∧ r.2.eventStore.journal ≠ s.eventStore.journal ∨ Indeterminate r.1) →
        ∀ later i', let s' := (machine R).after r.2 later
          s' = r.2 ∧ Indeterminate ((machine R).step s' i').1 ∧
            ((machine R).step s' i').2 = s') ∧
      (∀ i e, ((machine R).step s i).1 = .error (.error e) → e.isIndeterminate = false →
        ((machine R).step s i).2 = s ∧ Admitting s) := by
  intro s
  refine ⟨projection_after s₀ is, ?_, ?_⟩
  · intro i r h later i' s'
    have hclosed : ¬ Admitting r.2 := closed_of_lost h
    have hsame : s' = r.2 := after_of_closed hclosed later
    rw [hsame]
    exact ⟨rfl, step_of_closed hclosed i'⟩
  · intro i e h he
    exact unchanged_of_refused h he

end GhReport.App
