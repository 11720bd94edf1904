import GhReport.Library.Fairness
import Mathlib.Data.List.Nodup
import Mathlib.Data.List.Range

/-! # Single flight and ordering

Dispatches for one key look up whether the key has an aggregate, create it or append to
it, and publish. In a single flight this is one step. Split in two, a decision may be
old by the time it is acted on, and this is all that can go wrong.
-/

namespace GhReport.Spec.Ordering

/-- The aggregate of the one key; `indexed` is whether the routing index has the key. -/
structure Stream where
  indexed : Bool
  stream : List ℕ
  busLog : List ℕ
  seqTracker : ℕ
  dispatchesDone : ℕ
deriving DecidableEq

def Stream.empty : Stream := ⟨false, [], [], 0, 0⟩

/-- A dispatch that creates the aggregate, or appends to it. -/
def Stream.write (s : Stream) (create : Bool) : Stream :=
  let seq := if create then 1 else s.seqTracker + 1
  { indexed := create || s.indexed
    stream := s.stream ++ [seq]
    busLog := s.busLog ++ [seq]
    seqTracker := seq
    dispatchesDone := s.dispatchesDone + 1 }

/-! ## In one step -/

def dispatch (numDispatches : ℕ) (s : Stream) : Option Stream :=
  if s.dispatchesDone < numDispatches then some (s.write !s.indexed) else none

def singleFlight (numDispatches : ℕ) : ActionSystem Stream Unit where
  start := .empty
  next s _ := dispatch numDispatches s

/-! ## In two steps -/

inductive Phase where
  | idle
  | lookedUp
deriving DecidableEq

structure Dispatcher where
  phase : Phase
  wouldCreate : Bool
deriving DecidableEq

structure State (n : ℕ) extends Stream where
  dispatchers : Fin n → Dispatcher

inductive Action (n : ℕ) where
  | lookupPhase (w : Fin n)
  | commitPhase (w : Fin n)

variable {n : ℕ}

def lookupPhase (numDispatches : ℕ) (s : State n) (w : Fin n) : Option (State n) :=
  if s.dispatchesDone < numDispatches ∧ (s.dispatchers w).phase = .idle then
    some { s with dispatchers := Function.update s.dispatchers w ⟨.lookedUp, !s.indexed⟩ }
  else none

def commitPhase (s : State n) (w : Fin n) : Option (State n) :=
  if (s.dispatchers w).phase = .lookedUp then
    some ⟨s.toStream.write (s.dispatchers w).wouldCreate,
      Function.update s.dispatchers w { s.dispatchers w with phase := .idle }⟩
  else none

def split (n numDispatches : ℕ) : ActionSystem (State n) (Action n) where
  start := ⟨.empty, fun _ => ⟨.idle, false⟩⟩
  next s a :=
    match a with
    | .lookupPhase w => lookupPhase numDispatches s w
    | .commitPhase w => commitPhase s w

/-! ## Order -/

/-- The stream and the bus hold one event for each dispatch, in their order and without gaps. -/
structure Stream.InOrder (s : Stream) : Prop where
  stream_eq : s.stream = List.range' 1 s.dispatchesDone
  busLog_eq : s.busLog = List.range' 1 s.dispatchesDone
  seqTracker_eq : s.seqTracker = s.dispatchesDone
  indexed_iff : s.indexed = true ↔ 0 < s.dispatchesDone

theorem inOrder_empty : Stream.empty.InOrder := ⟨rfl, rfl, rfl, by decide⟩

/-- A decision that still holds when it is acted on keeps the order. -/
theorem Stream.InOrder.write {s : Stream} (h : s.InOrder) {create : Bool}
    (hcreate : create = !s.indexed) : (s.write create).InOrder := by
  have hseq : (if create then 1 else s.seqTracker + 1) = s.dispatchesDone + 1 := by
    rw [h.seqTracker_eq]
    cases hindexed : s.indexed with
    | true =>
      rw [hindexed] at hcreate
      rw [hcreate]
      rfl
    | false =>
      have hzero : s.dispatchesDone = 0 := Nat.eq_zero_of_not_pos fun hpos => by
        rw [h.indexed_iff.mpr hpos] at hindexed
        cases hindexed
      rw [hindexed] at hcreate
      rw [hcreate, hzero]
      rfl
  refine ⟨?_, ?_, hseq, ?_⟩
  · rw [Stream.write, hseq, h.stream_eq, List.range'_concat]
    simp [Nat.add_comm]
  · rw [Stream.write, hseq, h.busLog_eq, List.range'_concat]
    simp [Nat.add_comm]
  · simp [Stream.write, hcreate]

/-- Single-flighted, the dispatches are in order however often they are tried, up to the last. -/
theorem singleFlight_inOrder (numDispatches : ℕ) (tries : List Unit) :
    let s := (singleFlight numDispatches).reached tries
    s.InOrder ∧ s.dispatchesDone = min tries.length numDispatches := by
  induction tries using List.reverseRecOn with
  | nil => exact ⟨inOrder_empty, (Nat.zero_min _).symm⟩
  | append_singleton tries _ ih =>
    obtain ⟨hinOrder, hdone⟩ := ih
    dsimp only at *
    rw [ActionSystem.reached_append, List.length_append, List.length_singleton]
    rcases Nat.lt_or_ge tries.length numDispatches with hlt | hge
    · have hnext : (singleFlight numDispatches).next
          ((singleFlight numDispatches).reached tries) () =
            some (((singleFlight numDispatches).reached tries).write _) :=
        if_pos (by omega)
      rw [ActionSystem.step_of_next hnext]
      refine ⟨hinOrder.write rfl, ?_⟩
      simp only [Stream.write]
      omega
    · have hnext : (singleFlight numDispatches).next
          ((singleFlight numDispatches).reached tries) () = none :=
        if_neg (by omega)
      rw [ActionSystem.step_of_not_next hnext]
      refine ⟨hinOrder, ?_⟩
      dsimp only
      omega

/-! ## The race -/

/-- A dispatcher that is about to create what has been created since it looked. -/
def State.Stale (s : State n) (w : Fin n) : Prop :=
  (s.dispatchers w).phase = .lookedUp ∧ (s.dispatchers w).wouldCreate = true ∧ s.indexed = true

inductive Moves (numDispatches : ℕ) (s : State n) : Action n → State n → Prop
  | lookup {w : Fin n} (hdone : s.dispatchesDone < numDispatches)
      (hphase : (s.dispatchers w).phase = .idle) :
      Moves numDispatches s (.lookupPhase w)
        { s with dispatchers := Function.update s.dispatchers w ⟨.lookedUp, !s.indexed⟩ }
  | commit {w : Fin n} (hphase : (s.dispatchers w).phase = .lookedUp) :
      Moves numDispatches s (.commitPhase w)
        ⟨s.toStream.write (s.dispatchers w).wouldCreate,
          Function.update s.dispatchers w { s.dispatchers w with phase := .idle }⟩

variable {numDispatches : ℕ} {s s' : State n} {a : Action n} {w : Fin n}

theorem next_iff : (split n numDispatches).next s a = some s' ↔ Moves numDispatches s a s' := by
  constructor
  · intro h
    cases a with
    | lookupPhase w =>
      simp only [split, lookupPhase] at h
      split_ifs at h with henabled
      cases h
      exact .lookup henabled.1 henabled.2
    | commitPhase w =>
      simp only [split, commitPhase] at h
      split_ifs at h with hphase
      cases h
      exact .commit hphase
  · rintro (⟨hdone, hphase⟩ | ⟨hphase⟩)
    · simp [split, lookupPhase, hdone, hphase]
    · simp [split, commitPhase, hphase]

/-- An aggregate is created at the first position, and its key stays in the index. -/
structure Kept (s : State n) : Prop where
  created : s.indexed = true → 1 ∈ s.stream
  appends : ∀ w, (s.dispatchers w).phase = .lookedUp → (s.dispatchers w).wouldCreate = false →
    s.indexed = true

theorem Kept.move (h : Kept s) (hmove : Moves numDispatches s a s') : Kept s' := by
  cases hmove with
  | @lookup w =>
    refine ⟨h.created, fun v hphase hwould => ?_⟩
    rcases eq_or_ne v w with rfl | hne
    · simpa using hwould
    · simp only [Function.update_of_ne hne] at hphase hwould
      exact h.appends v hphase hwould
  | @commit w hphase =>
    have hindexed : (s.toStream.write (s.dispatchers w).wouldCreate).indexed = true := by
      cases hwould : (s.dispatchers w).wouldCreate with
      | true => rfl
      | false => exact h.appends w hphase hwould
    refine ⟨fun _ => ?_, fun _ _ _ => hindexed⟩
    cases hwould : (s.dispatchers w).wouldCreate with
    | true => exact List.mem_append_right _ (List.mem_singleton_self 1)
    | false => exact List.mem_append_left _ (h.created (h.appends w hphase hwould))

theorem reached_kept (as : List (Action n)) : Kept ((split n numDispatches).reached as) := by
  refine ActionSystem.invariant (I := Kept) ⟨?_, ?_⟩
    (fun _ _ _ hs h => hs.move (next_iff.mp h)) as
  · rintro ⟨⟩
  · rintro w ⟨⟩

/-- What is in the stream stays in it. -/
theorem stream_grows (numDispatches : ℕ) (s : State n) (as : List (Action n)) :
    s.stream <+: ((split n numDispatches).machine.after s as).stream := by
  induction as generalizing s with
  | nil => exact List.prefix_rfl
  | cons a as ih =>
    rw [Machine.after_cons]
    refine List.IsPrefix.trans ?_ (ih _)
    cases hnext : (split n numDispatches).next s a with
    | none =>
      rw [ActionSystem.step_of_not_next hnext]
    | some s' =>
      rw [ActionSystem.step_of_next hnext]
      cases next_iff.mp hnext with
      | lookup => exact List.prefix_rfl
      | commit => exact List.prefix_append ..

theorem inOrder_of_not_stale {as : List (Action n)}
    (h : ∀ before w, before ++ [.commitPhase w] <+: as →
      ¬ ((split n numDispatches).reached before).Stale w) :
    ((split n numDispatches).reached as).InOrder := by
  induction as using List.reverseRecOn with
  | nil => exact inOrder_empty
  | append_singleton as a ih =>
    have hinOrder := ih fun before w hbefore => h before w (hbefore.trans (List.prefix_append ..))
    rw [ActionSystem.reached_append]
    cases hnext : (split n numDispatches).next ((split n numDispatches).reached as) a with
    | none => rwa [ActionSystem.step_of_not_next hnext]
    | some s' =>
      rw [ActionSystem.step_of_next hnext]
      cases next_iff.mp hnext with
      | lookup => exact hinOrder
      | @commit w hphase =>
        refine hinOrder.write ?_
        have hfresh := h as w List.prefix_rfl
        cases hwould : (((split n numDispatches).reached as).dispatchers w).wouldCreate with
        | true =>
          cases hindexed : ((split n numDispatches).reached as).indexed with
          | true => exact absurd ⟨hphase, hwould, hindexed⟩ hfresh
          | false => rfl
        | false =>
          rw [(reached_kept as).appends w hphase hwould]
          rfl

theorem not_nodup_of_stale {as before : List (Action n)}
    (hbefore : before ++ [.commitPhase w] <+: as)
    (hstale : ((split n numDispatches).reached before).Stale w) :
    ¬ ((split n numDispatches).reached as).stream.Nodup := by
  obtain ⟨hphase, hwould, hindexed⟩ := hstale
  obtain ⟨later, rfl⟩ := hbefore
  intro hnodup
  have hgrows := stream_grows numDispatches
    ((split n numDispatches).reached (before ++ [.commitPhase w])) later
  rw [ActionSystem.reached, Machine.after_append] at hnodup
  have hnodup := hnodup.sublist hgrows.sublist
  rw [ActionSystem.reached_append, ActionSystem.step_of_next (next_iff.mpr (.commit hphase)),
    hwould] at hnodup
  refine (List.nodup_append.mp hnodup).2.2 1 ((reached_kept before).created hindexed) 1 ?_ rfl
  exact List.mem_singleton_self 1

/--
Split in two, a run keeps the order just if no dispatcher creates what another has created
since it looked; and otherwise some position of the stream is taken twice.
-/
theorem split_inOrder_iff (n numDispatches : ℕ) (as : List (Action n)) :
    let S := split n numDispatches
    ((S.reached as).InOrder ↔
      ∀ before w, before ++ [.commitPhase w] <+: as → ¬ (S.reached before).Stale w) ∧
    ((S.reached as).stream.Nodup ↔ (S.reached as).InOrder) := by
  intro S
  have hnodup : (S.reached as).stream.Nodup →
      ∀ before w, before ++ [.commitPhase w] <+: as → ¬ (S.reached before).Stale w :=
    fun hnodup before w hbefore hstale => not_nodup_of_stale hbefore hstale hnodup
  have horder : (S.reached as).InOrder → (S.reached as).stream.Nodup := fun h =>
    h.stream_eq ▸ List.nodup_range'
  exact ⟨⟨fun h => hnodup (horder h), inOrder_of_not_stale⟩,
    fun h => inOrder_of_not_stale (hnodup h), horder⟩

end GhReport.Spec.Ordering
