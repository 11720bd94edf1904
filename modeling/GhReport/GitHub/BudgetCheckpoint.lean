import GhReport.GitHub.RouteTemplate
import GhReport.Library.History
import Mathlib.Data.List.Sort
import Mathlib.Algebra.Group.Nat.Defs
import Mathlib.Algebra.GroupWithZero.Nat

/-! # Budget checkpoints

A run of the collection reports a few milestones of its calls, each once, with its
most consuming routes. The calls are recorded by tasks that share counters and a
cursor; a task claims a milestone by exchanging the cursor that it has read. A load of
an atomic need not see the latest value; an exchange does.
-/

namespace GhReport.GitHub

/-! ## Milestones -/

def maxCheckpointsPerRun : ℕ := 8

/-- Thousandths of the ceiling. -/
def ascendingThresholds : List ℕ := [250, 500, 750, 1000, 2000, 4000, 8000, 16000]

def routesNamedPerCheckpoint : ℕ := 3

/-- The calls of a milestone; the product saturates in 64 bits. -/
def thresholdCalls (ceiling permille : ℕ) : ℕ :=
  max (min (ceiling * permille) (2 ^ 64 - 1) / 1000) 1

/-- The more calls the higher, and of as many the route that comes first. -/
def ranksAbove (a b : Route × ℕ) : Bool :=
  b.2 < a.2 || (b.2 = a.2 && a.1.index ≤ b.1.index)

/-- The most consuming routes of a reading of the counters. -/
def topRoutes (reading : Route → ℕ) : List (Route × ℕ) :=
  let ranked := (Route.all.map fun r => (r, reading r)).filter fun entry => 0 < entry.2
  (ranked.mergeSort ranksAbove).take routesNamedPerCheckpoint

/-! ## Tasks -/

/--
Where a task stands that records a call. `ranking` reads the counters one by one, and has those
of some routes left.
-/
inductive RecordPhase where
  | idle
  | counted (calls ceiling : ℕ)
  | claiming (calls ceiling index : ℕ)
  | ranking (calls ceiling index : ℕ) (reading : Route → ℕ) (left : List Route)

structure BudgetCheckpoints where
  counts : Route → ℕ
  nextThreshold : ℕ
  baselineCalls : ℕ
  task : ℕ → RecordPhase

/-- A task that advances loads a value that is `lag` behind the latest. -/
inductive RecordInput where
  | record (task : ℕ) (route : Route) (totalCallsMade ceiling : ℕ)
  | advance (task lag : ℕ)

/--
A call that is counted, one that reports nothing, a milestone that is claimed, and its report;
the index of a report is a history that no step reads.
-/
inductive RecordEvent where
  | counted (route : Route)
  | passed (calls ceiling : ℕ)
  | crossed (index calls ceiling : ℕ)
  | reported (calls ceiling index : ℕ) (top : List (Route × ℕ))
deriving DecidableEq

namespace BudgetCheckpoints

/-- The counters of one run, measured from the calls made before it. -/
def forRun (baselineCalls : ℕ) : BudgetCheckpoints :=
  ⟨fun _ => 0, 0, baselineCalls, fun _ => .idle⟩

variable (s : BudgetCheckpoints) (i : ℕ)

def setTask (phase : RecordPhase) : BudgetCheckpoints :=
  { s with task := Function.update s.task i phase }

def record (route : Route) (totalCallsMade ceiling : ℕ) : List RecordEvent × BudgetCheckpoints :=
  match s.task i with
  | .idle =>
    ([.counted route],
      { s.setTask i (.counted (totalCallsMade - s.baselineCalls) ceiling) with
        counts := Function.update s.counts route (s.counts route + 1) })
  | _ => ([], s)

/-- A turn of the loop reads the cursor, and either returns or tries to move it on. -/
def advance (lag : ℕ) : List RecordEvent × BudgetCheckpoints :=
  match s.task i with
  | .idle => ([], s)
  | .counted calls ceiling =>
    let index := s.nextThreshold - lag
    match ascendingThresholds[index]? with
    | none => ([.passed calls ceiling], s.setTask i .idle)
    | some permille =>
      if calls < thresholdCalls ceiling permille then
        ([.passed calls ceiling], s.setTask i .idle)
      else ([], s.setTask i (.claiming calls ceiling index))
  | .claiming calls ceiling index =>
    if s.nextThreshold = index then
      ([.crossed index calls ceiling],
        { s.setTask i (.ranking calls ceiling index (fun _ => 0) Route.all) with
          nextThreshold := index + 1 })
    else ([], s.setTask i (.counted calls ceiling))
  | .ranking calls ceiling index reading (route :: left) =>
    ([], s.setTask i
      (.ranking calls ceiling index (Function.update reading route (s.counts route - lag)) left))
  | .ranking calls ceiling index reading [] =>
    ([.reported calls ceiling index (topRoutes reading)], s.setTask i .idle)

end BudgetCheckpoints

def checkpointMachine : Machine BudgetCheckpoints RecordInput (List RecordEvent) where
  step s input :=
    match input with
    | .record i route totalCallsMade ceiling => s.record i route totalCallsMade ceiling
    | .advance i lag => s.advance i lag

/-! ## What the history says -/

def RecordEvent.isCrossed : RecordEvent → Bool
  | crossed .. => true
  | _ => false

/-- The milestones that were claimed. -/
def crossings (events : List RecordEvent) : ℕ := events.countP RecordEvent.isCrossed

def RecordEvent.reportedIndex : RecordEvent → Option ℕ
  | reported _ _ index _ => some index
  | _ => none

/-- The milestones that were reported. -/
def reportedIndices (events : List RecordEvent) : List ℕ :=
  events.filterMap RecordEvent.reportedIndex

/-- The calls that were counted for a route. -/
def callsOf (events : List RecordEvent) (route : Route) : ℕ := events.count (.counted route)

/--
The milestones are claimed one after the other, each by a call that has reached it; a call that
reports nothing is below the next. A milestone is reported once, after it was claimed, with the
routes that are on top of a reading of the counters.
-/
def Reports (before : List RecordEvent) : RecordEvent → Prop
  | .counted _ => True
  | .passed calls ceiling =>
    ∀ permille ∈ ascendingThresholds[crossings before]?, calls < thresholdCalls ceiling permille
  | .crossed index calls ceiling =>
    index = crossings before ∧
      ∃ permille ∈ ascendingThresholds[index]?, thresholdCalls ceiling permille ≤ calls
  | .reported calls ceiling index top =>
    index ∉ reportedIndices before ∧ .crossed index calls ceiling ∈ before ∧
      ∃ reading, top = topRoutes reading ∧ ∀ r, reading r ≤ callsOf before r

/-! ## The invariant -/

section Concat

variable (events : List RecordEvent) (e : RecordEvent)

theorem crossings_concat : crossings (events ++ [e]) = crossings events + e.isCrossed.toNat := by
  rw [crossings, List.countP_append, List.countP_singleton, crossings]
  cases e.isCrossed <;> rfl

theorem callsOf_concat (r : Route) :
    callsOf (events ++ [e]) r = callsOf events r + if e = .counted r then 1 else 0 := by
  rw [callsOf, List.count_append, List.count_singleton, callsOf]
  simp only [beq_iff_eq]

theorem reportedIndices_concat :
    reportedIndices (events ++ [e]) = reportedIndices events ++ e.reportedIndex.toList := by
  rw [reportedIndices, List.filterMap_append, reportedIndices]
  cases e <;> rfl

theorem mem_reportedIndices_concat {index : ℕ} :
    index ∈ reportedIndices (events ++ [e]) ↔
      index ∈ reportedIndices events ∨
        ∃ calls ceiling top, e = .reported calls ceiling index top := by
  rw [reportedIndices_concat, List.mem_append]
  cases e <;> simp [RecordEvent.reportedIndex, eq_comm]

end Concat

/-- What a task knows in its phase. -/
def RecordPhase.Knows (before : List RecordEvent) : RecordPhase → Prop
  | idle | counted .. => True
  | claiming calls ceiling index =>
    ∃ permille ∈ ascendingThresholds[index]?, thresholdCalls ceiling permille ≤ calls
  | ranking calls ceiling index reading _ =>
    .crossed index calls ceiling ∈ before ∧ ∀ r, reading r ≤ callsOf before r

/-- The milestone that a task has claimed and not reported yet. -/
def RecordPhase.claimed : RecordPhase → Option ℕ
  | ranking _ _ index _ _ => some index
  | _ => none

structure BudgetCheckpoints.Counts (before : List RecordEvent) (s : BudgetCheckpoints) :
    Prop where
  reports : History.Always Reports before
  cursor : s.nextThreshold = crossings before
  counts : ∀ r, s.counts r = callsOf before r
  knows : ∀ i, (s.task i).Knows before
  below : ∀ index ∈ reportedIndices before, index < s.nextThreshold
  claimed : ∀ i, ∀ index ∈ (s.task i).claimed, index < s.nextThreshold
  unreported : ∀ i, ∀ index ∈ (s.task i).claimed, index ∉ reportedIndices before
  single : ∀ i j, ∀ index ∈ (s.task i).claimed, index ∈ (s.task j).claimed → i = j

theorem RecordPhase.Knows.concat {before : List RecordEvent} {p : RecordPhase}
    (h : p.Knows before) (e : RecordEvent) : p.Knows (before ++ [e]) := by
  cases p with
  | idle | counted => trivial
  | claiming calls ceiling index => exact h
  | ranking calls ceiling index reading left =>
    exact ⟨List.mem_append_left _ h.1, fun r =>
      (h.2 r).trans (by rw [callsOf_concat]; exact Nat.le_add_right _ _)⟩

namespace BudgetCheckpoints

variable {before : List RecordEvent} {s : BudgetCheckpoints} {i : ℕ} {p : RecordPhase}

theorem counts_forRun (baselineCalls : ℕ) : (forRun baselineCalls).Counts [] where
  reports := .nil
  cursor := rfl
  counts _ := rfl
  knows _ := trivial
  below _ h := absurd h List.not_mem_nil
  claimed _ _ h := by cases h
  unreported _ _ h := by cases h
  single _ _ _ h := by cases h

theorem Counts.knows_of (h : s.Counts before) (ht : s.task i = p) : p.Knows before := by
  rw [← ht]
  exact h.knows i

theorem forall_update {P : ℕ → RecordPhase → Prop} {task : ℕ → RecordPhase}
    (h : ∀ j, P j (task j)) (hp : P i p) (j : ℕ) : P j (Function.update task i p j) := by
  rcases eq_or_ne j i with rfl | hj
  · rwa [Function.update_self]
  · rw [Function.update_of_ne hj]
    exact h j

/-- A task moves on without a claim that it did not have. -/
theorem claimed_setTask (hc : ∀ index ∈ p.claimed, index ∈ (s.task i).claimed) (j : ℕ) :
    ∀ index ∈ ((s.setTask i p).task j).claimed, index ∈ (s.task j).claimed :=
  forall_update (P := fun j p => ∀ index ∈ p.claimed, index ∈ (s.task j).claimed)
    (fun _ _ hm => hm) hc j

theorem Counts.setTask (h : s.Counts before) (hp : p.Knows before)
    (hc : ∀ index ∈ p.claimed, index ∈ (s.task i).claimed) : (s.setTask i p).Counts before where
  reports := h.reports
  cursor := h.cursor
  counts := h.counts
  knows := forall_update h.knows hp
  below := h.below
  claimed j index hj := h.claimed j index (claimed_setTask hc j index hj)
  unreported j index hj := h.unreported j index (claimed_setTask hc j index hj)
  single j k index hj hk :=
    h.single j k index (claimed_setTask hc j index hj) (claimed_setTask hc k index hk)

/-- An event that is neither a call, a claim nor a report. -/
theorem Counts.concat {e : RecordEvent} (h : s.Counts before) (hr : Reports before e)
    (hc : e.isCrossed = false) (hn : ∀ r, e ≠ .counted r)
    (hreport : ∀ index, (∃ calls ceiling top, e = .reported calls ceiling index top) →
      index < s.nextThreshold ∧ ∀ i, index ∉ (s.task i).claimed) : s.Counts (before ++ [e]) where
  reports := (History.always_concat_iff e).mpr ⟨h.reports, hr⟩
  cursor := by rw [crossings_concat, hc]; exact h.cursor
  counts r := by rw [callsOf_concat, if_neg (hn r)]; exact h.counts r
  knows j := (h.knows j).concat e
  below index hm := ((mem_reportedIndices_concat ..).mp hm).elim (h.below index)
    fun he => (hreport index he).1
  claimed := h.claimed
  unreported j index hj hm := ((mem_reportedIndices_concat ..).mp hm).elim
    (h.unreported j index hj) fun he => (hreport index he).2 j hj
  single := h.single

theorem Counts.record (h : s.Counts before) (i : ℕ) (route : Route)
    (totalCallsMade ceiling : ℕ) :
    (s.record i route totalCallsMade ceiling).2.Counts
      (before ++ (s.record i route totalCallsMade ceiling).1) := by
  unfold BudgetCheckpoints.record
  split
  · have hset := h.setTask (i := i) (p := .counted (totalCallsMade - s.baselineCalls) ceiling)
      trivial (fun _ hi => by cases hi)
    exact
      { hset with
        reports := (History.always_concat_iff _).mpr ⟨h.reports, trivial⟩
        cursor := by rw [crossings_concat]; exact h.cursor
        counts := fun r => by
          rw [callsOf_concat, ← h.counts r]
          rcases eq_or_ne r route with rfl | hr
          · simp
          · simp [hr, hr.symm]
        knows := fun j => (hset.knows j).concat _
        below := fun index hm =>
          hset.below index (by simpa [mem_reportedIndices_concat] using hm)
        unreported := fun j index hj hm =>
          hset.unreported j index hj (by simpa [mem_reportedIndices_concat] using hm) }
  · rwa [List.append_nil]

/-- The cursor is exchanged by the first of those that have read it. -/
theorem Counts.claim (h : s.Counts before) {calls ceiling index : ℕ}
    (ht : s.task i = .claiming calls ceiling index) (hi : s.nextThreshold = index) :
    ({ s.setTask i (.ranking calls ceiling index (fun _ => 0) Route.all) with
        nextThreshold := index + 1 } : BudgetCheckpoints).Counts
      (before ++ [.crossed index calls ceiling]) where
  reports := (History.always_concat_iff _).mpr
    ⟨h.reports, hi.symm.trans h.cursor, h.knows_of ht⟩
  cursor := by rw [crossings_concat, ← h.cursor, hi]; rfl
  counts r := by rw [callsOf_concat, if_neg (by simp)]; exact h.counts r
  knows := by
    refine forall_update (fun j => (h.knows j).concat _) ?_
    exact ⟨List.mem_append_right _ (List.mem_singleton_self _), fun _ => Nat.zero_le _⟩
  below index' hm := by
    have hm : index' ∈ reportedIndices before := by simpa [mem_reportedIndices_concat] using hm
    exact (h.below index' hm).trans (hi ▸ Nat.lt_succ_self _)
  claimed := by
    refine forall_update (P := fun _ p => ∀ index' ∈ p.claimed, index' < index + 1)
      (fun j index' hj => ?_) ?_
    · exact (h.claimed j index' hj).trans (hi ▸ Nat.lt_succ_self _)
    · rintro _ ⟨⟩
      exact Nat.lt_succ_self _
  unreported := by
    refine forall_update (P := fun _ p => ∀ index' ∈ p.claimed,
      index' ∉ reportedIndices (before ++ [.crossed index calls ceiling]))
      (fun j index' hj hm => ?_) ?_
    · exact h.unreported j index' hj (by simpa [mem_reportedIndices_concat] using hm)
    · rintro _ ⟨⟩ hm
      have hm : index ∈ reportedIndices before := by simpa [mem_reportedIndices_concat] using hm
      exact absurd (h.below index hm) (hi ▸ lt_irrefl _)
  single := by
    -- every other claim is below the cursor
    have hother : ∀ j, j ≠ i → index ∉ (s.task j).claimed := fun j _ hj =>
      absurd (h.claimed j index hj) (hi ▸ lt_irrefl _)
    intro j k index' hj hk
    dsimp only [BudgetCheckpoints.setTask] at hj hk
    rcases eq_or_ne j i with rfl | hji
    · rcases eq_or_ne k j with rfl | hkj
      · rfl
      · rw [Function.update_self] at hj
        rw [Function.update_of_ne hkj] at hk
        cases hj
        exact absurd hk (hother k hkj)
    · rw [Function.update_of_ne hji] at hj
      rcases eq_or_ne k i with rfl | hki
      · rw [Function.update_self] at hk
        cases hk
        exact absurd hj (hother j hji)
      · rw [Function.update_of_ne hki] at hk
        exact h.single j k index' hj hk

/-- A task that reports nothing, or has reported, is done. -/
theorem Counts.done (h : s.Counts before) (i : ℕ) : (s.setTask i .idle).Counts before :=
  h.setTask trivial fun _ hi => by cases hi

theorem thresholdCalls_mono (ceiling : ℕ) : Monotone (thresholdCalls ceiling) := by
  intro permille permille' h
  have hmul : ceiling * permille ≤ ceiling * permille' := Nat.mul_le_mul_left ceiling h
  unfold thresholdCalls
  omega

theorem ascendingThresholds_mono {j k permille permille' : ℕ} (h : j ≤ k)
    (hj : ascendingThresholds[j]? = some permille)
    (hk : ascendingThresholds[k]? = some permille') : permille ≤ permille' := by
  have hsorted : ascendingThresholds.Pairwise (· ≤ ·) := by decide
  obtain ⟨hj', rfl⟩ := List.getElem?_eq_some_iff.mp hj
  obtain ⟨hk', rfl⟩ := List.getElem?_eq_some_iff.mp hk
  rcases h.eq_or_lt with rfl | hlt
  · exact le_rfl
  · exact List.pairwise_iff_getElem.mp hsorted j k hj' hk' hlt

/-- What is below a milestone of an earlier cursor is below the one of the latest. -/
theorem Counts.pass (h : s.Counts before) (i lag : ℕ) {calls ceiling : ℕ}
    (hbelow : ∀ permille ∈ ascendingThresholds[s.nextThreshold - lag]?,
      calls < thresholdCalls ceiling permille) :
    (s.setTask i .idle).Counts (before ++ [.passed calls ceiling]) := by
  refine (h.done i).concat ?_ rfl (by simp) ?_
  · intro permille hp
    rw [← h.cursor] at hp
    have hlt : s.nextThreshold - lag < ascendingThresholds.length :=
      lt_of_le_of_lt (Nat.sub_le _ _) (List.getElem?_eq_some_iff.mp hp).1
    have hearlier := List.getElem?_eq_getElem hlt
    calc calls < thresholdCalls ceiling ascendingThresholds[s.nextThreshold - lag] :=
          hbelow _ hearlier
      _ ≤ thresholdCalls ceiling permille :=
          thresholdCalls_mono ceiling (ascendingThresholds_mono (Nat.sub_le _ _) hearlier hp)
  · rintro index ⟨_, _, _, ⟨⟩⟩

theorem Counts.report (h : s.Counts before) {calls ceiling index : ℕ} {reading : Route → ℕ}
    (ht : s.task i = .ranking calls ceiling index reading []) :
    (s.setTask i .idle).Counts (before ++ [.reported calls ceiling index (topRoutes reading)]) := by
  obtain ⟨hcrossed, hread⟩ := h.knows_of ht
  have hclaimed : index ∈ (s.task i).claimed := by rw [ht]; rfl
  refine (h.done i).concat ?_ rfl (by simp) ?_
  · exact ⟨h.unreported i index hclaimed, hcrossed, reading, rfl, hread⟩
  · rintro index' ⟨_, _, _, ⟨⟩⟩
    refine ⟨h.claimed i index hclaimed, fun j hj => ?_⟩
    rcases eq_or_ne j i with rfl | hne
    · simp [BudgetCheckpoints.setTask, RecordPhase.claimed] at hj
    · have hj' : index ∈ (s.task j).claimed := by
        simpa [BudgetCheckpoints.setTask, Function.update_of_ne hne] using hj
      exact hne (h.single j i index hj' hclaimed)

theorem Counts.advance (h : s.Counts before) (i lag : ℕ) :
    (s.advance i lag).2.Counts (before ++ (s.advance i lag).1) := by
  have hsilent : ∀ {s' : BudgetCheckpoints}, s'.Counts before → s'.Counts (before ++ []) := by
    intro s' hs'
    rwa [List.append_nil]
  unfold BudgetCheckpoints.advance
  cases ht : s.task i with
  | idle => exact hsilent h
  | counted calls ceiling =>
    dsimp only
    split
    · rename_i hnone
      exact h.pass i lag fun permille hp => by simp [hnone] at hp
    · rename_i permille hsome
      split
      · rename_i hbelow
        refine h.pass i lag fun permille' hp => ?_
        rw [hsome] at hp
        cases hp
        exact hbelow
      · rename_i hreached
        refine hsilent (h.setTask ⟨permille, hsome, Nat.le_of_not_lt hreached⟩ ?_)
        exact fun _ hi => by cases hi
  | claiming calls ceiling index =>
    dsimp only
    split
    · rename_i hi
      exact h.claim ht hi
    · exact hsilent (h.setTask trivial fun _ hi => by cases hi)
  | ranking calls ceiling index reading left =>
    cases left with
    | nil => exact h.report ht
    | cons route left =>
      obtain ⟨hcrossed, hread⟩ := h.knows_of ht
      refine hsilent (h.setTask ⟨hcrossed, fun r => ?_⟩ ?_)
      · rcases eq_or_ne r route with rfl | hne
        · rw [Function.update_self, h.counts r]
          exact Nat.sub_le _ _
        · rw [Function.update_of_ne hne]
          exact hread r
      · rw [ht]
        exact fun _ hi => hi

end BudgetCheckpoints

/-- Whatever the order in which the tasks advance, what is reported is as the counters say. -/
theorem checkpointMachine_reports (baselineCalls : ℕ) (inputs : List RecordInput) :
    History.Always Reports
      (checkpointMachine.history (BudgetCheckpoints.forRun baselineCalls) inputs) := by
  refine (Machine.history_invariant (I := BudgetCheckpoints.Counts) ?_
    (BudgetCheckpoints.counts_forRun baselineCalls) inputs).reports
  intro before s input h
  cases input with
  | record i route totalCallsMade ceiling => exact h.record i route totalCallsMade ceiling
  | advance i lag => exact h.advance i lag

/-! ## How many -/

theorem crossings_le {events : List RecordEvent} (h : History.Always Reports events) :
    crossings events ≤ maxCheckpointsPerRun := by
  induction events using List.reverseRecOn with
  | nil => exact Nat.zero_le _
  | append_singleton events e ih =>
    obtain ⟨hevents, he⟩ := (History.always_concat_iff e).mp h
    rw [crossings_concat]
    cases e with
    | crossed index calls ceiling =>
      obtain ⟨hindex, permille, hp, -⟩ := he
      have hlt : index < ascendingThresholds.length := (List.getElem?_eq_some_iff.mp hp).1
      rw [← hindex]
      exact hlt
    | _ => exact ih hevents

theorem mem_crossed_lt {events : List RecordEvent} (h : History.Always Reports events)
    {index calls ceiling : ℕ} (hm : .crossed index calls ceiling ∈ events) :
    index < crossings events := by
  induction events using List.reverseRecOn with
  | nil => cases hm
  | append_singleton events e ih =>
    obtain ⟨hevents, he⟩ := (History.always_concat_iff e).mp h
    rw [crossings_concat]
    rcases List.mem_append.mp hm with hm | hm
    · exact (ih hevents hm).trans_le (Nat.le_add_right _ _)
    · obtain rfl := List.mem_singleton.mp hm
      exact he.1 ▸ Nat.lt_succ_self _

theorem nodup_reportedIndices {events : List RecordEvent} (h : History.Always Reports events) :
    (reportedIndices events).Nodup := by
  induction events using List.reverseRecOn with
  | nil => exact List.nodup_nil
  | append_singleton events e ih =>
    obtain ⟨hevents, he⟩ := (History.always_concat_iff e).mp h
    rw [reportedIndices_concat]
    cases e with
    | reported calls ceiling index top =>
      exact List.nodup_append_comm.mp (List.nodup_cons.mpr ⟨he.1, ih hevents⟩)
    | _ => exact (List.append_nil _).symm ▸ ih hevents

theorem reportedIndices_lt {events : List RecordEvent} (h : History.Always Reports events)
    {index : ℕ} (hm : index ∈ reportedIndices events) : index < crossings events := by
  induction events using List.reverseRecOn with
  | nil => cases hm
  | append_singleton events e ih =>
    obtain ⟨hevents, he⟩ := (History.always_concat_iff e).mp h
    rw [crossings_concat]
    rcases (mem_reportedIndices_concat events e).mp hm with hm | ⟨calls, ceiling, top, rfl⟩
    · exact (ih hevents hm).trans_le (Nat.le_add_right _ _)
    · exact mem_crossed_lt hevents he.2.1

/--
However many calls a run makes, and however its tasks interleave: a milestone is reported once,
and there are no more reports than milestones.
-/
theorem checkpointMachine_reported_le (baselineCalls : ℕ) (inputs : List RecordInput) :
    let events := checkpointMachine.history (BudgetCheckpoints.forRun baselineCalls) inputs
    (reportedIndices events).Nodup ∧ (reportedIndices events).length ≤ maxCheckpointsPerRun := by
  intro events
  have hreports : History.Always Reports events := checkpointMachine_reports baselineCalls inputs
  have hnodup := nodup_reportedIndices hreports
  refine ⟨hnodup, ?_⟩
  have hsub : reportedIndices events ⊆ List.range (crossings events) := fun index hm =>
    List.mem_range.mpr (reportedIndices_lt hreports hm)
  calc (reportedIndices events).length
      ≤ (List.range (crossings events)).length := (List.subperm_of_subset hnodup hsub).length_le
    _ = crossings events := List.length_range
    _ ≤ maxCheckpointsPerRun := crossings_le hreports

end GhReport.GitHub
