import GhReport.Library.Machine
import Mathlib.Data.List.DropRight

/-! # Histories

A machine whose answers are lists of events leaves a history. What is said of a
history is said event by event: of each event and of what went before it.
-/

namespace Machine

variable {σ ι α : Type*} (M : Machine σ ι (List α))

/-- The events of a run, in order. -/
def history : σ → List ι → List α
  | _, [] => []
  | s, i :: is => (M.step s i).1 ++ history (M.step s i).2 is

variable {M}

/-- What every step keeps of a state and its history holds after every run. -/
theorem history_invariant {I : List α → σ → Prop}
    (hstep : ∀ events s i, I events s → I (events ++ (M.step s i).1) (M.step s i).2) {s : σ}
    (hs : I [] s) (is : List ι) : I (M.history s is) (M.after s is) := by
  have hrun : ∀ events s, I events s → I (events ++ M.history s is) (M.after s is) := by
    induction is with
    | nil =>
      intro events s h
      rwa [history, List.append_nil]
    | cons i is ih =>
      intro events s h
      rw [history, ← List.append_assoc]
      exact ih _ _ (hstep events s i h)
  exact hrun [] s hs

/-- What every step pays for out of a potential happens at most as often as the potential allows. -/
theorem countP_history_le {I : σ → Prop} {G : ι → Prop} {p : α → Bool} {f : σ → ℕ}
    (hstep : ∀ s i, I s → G i → I (M.step s i).2 ∧
      (M.step s i).1.countP p + f (M.step s i).2 ≤ f s)
    {s : σ} (hs : I s) {is : List ι} (his : ∀ i ∈ is, G i) :
    (M.history s is).countP p ≤ f s := by
  induction is generalizing s with
  | nil => exact Nat.zero_le _
  | cons i is ih =>
    rw [List.forall_mem_cons] at his
    obtain ⟨hnext, hpaid⟩ := hstep s i hs his.1
    have hrest := ih hnext his.2
    rw [history, List.countP_append]
    omega

end Machine

namespace History

variable {α : Type*}

/-! ## Every event -/

/-- Each event is as `D` says, given the events before it. -/
def Always (D : List α → α → Prop) (events : List α) : Prop :=
  ∀ before e, before ++ [e] <+: events → D before e

variable {D : List α → α → Prop} {events : List α}

theorem Always.nil : Always D [] := by
  intro before e h
  exact absurd (List.prefix_nil.mp h) (List.append_ne_nil_of_right_ne_nil _ (List.cons_ne_nil _ _))

theorem always_concat_iff (x : α) : Always D (events ++ [x]) ↔ Always D events ∧ D events x := by
  simp only [Always, List.prefix_concat_iff, List.append_singleton_inj]
  constructor
  · intro h
    exact ⟨fun before e hprefix => h before e (.inr hprefix), h events x (.inl ⟨rfl, rfl⟩)⟩
  · rintro ⟨h, hx⟩ before e (⟨rfl, rfl⟩ | hprefix)
    · exact hx
    · exact h before e hprefix

/-- Each event of a history that is split at it. -/
theorem Always.split {before later : List α} {e : α} (h : Always D (before ++ e :: later)) :
    D before e :=
  h before e ⟨later, List.append_cons .. |>.symm⟩

/-! ## Events that are not answered yet -/

/-- Some event was a request, and no answer came after it. -/
def Awaits (request : List α → α → Prop) (answer : α) (events : List α) : Prop :=
  ∃ before e later, events = before ++ e :: later ∧ request before e ∧ answer ∉ later

variable {request : List α → α → Prop} {answer : α}

theorem not_awaits_nil : ¬ Awaits request answer [] := by
  rintro ⟨before, e, later, h, -⟩
  exact absurd h.symm (List.append_ne_nil_of_right_ne_nil _ (List.cons_ne_nil _ _))

theorem awaits_concat_iff (x : α) :
    Awaits request answer (events ++ [x]) ↔
      request events x ∨ Awaits request answer events ∧ x ≠ answer := by
  constructor
  · rintro ⟨before, e, later, h, hrequest, hanswer⟩
    rcases List.eq_nil_or_concat' later with rfl | ⟨later, y, rfl⟩
    · obtain ⟨rfl, rfl⟩ := List.append_singleton_inj.mp h
      exact .inl hrequest
    · rw [← List.cons_append, ← List.append_assoc] at h
      obtain ⟨rfl, rfl⟩ := List.append_singleton_inj.mp h
      rw [List.mem_append, not_or, List.mem_singleton] at hanswer
      exact .inr ⟨⟨before, e, later, rfl, hrequest, hanswer.1⟩, fun h => hanswer.2 h.symm⟩
  · rintro (hrequest | ⟨⟨before, e, later, rfl, hrequest, hanswer⟩, hx⟩)
    · exact ⟨events, x, [], rfl, hrequest, List.not_mem_nil⟩
    · refine ⟨before, e, later ++ [x], by simp, hrequest, ?_⟩
      rw [List.mem_append, not_or, List.mem_singleton]
      exact ⟨hanswer, fun h => hx h.symm⟩

/-- A request that does not wait was answered. -/
theorem answered_of_not_awaits {before later : List α} {e : α}
    (h : ¬ Awaits request answer (before ++ e :: later)) (hrequest : request before e) :
    answer ∈ later := by
  by_contra hanswer
  exact h ⟨before, e, later, rfl, hrequest, hanswer⟩

/-! ## The events after the last of a kind -/

variable [DecidableEq α]

/-- The events after the last `e`, all of them if there is none. -/
def since (e : α) (events : List α) : List α := events.rtakeWhile (· ≠ e)

@[simp] theorem since_nil (e : α) : since e ([] : List α) = [] := List.rtakeWhile_nil _

@[simp] theorem since_concat_self (e : α) : since e (events ++ [e]) = [] := by
  rw [since, List.rtakeWhile_concat_neg _ _ _ (by simp)]

@[simp] theorem since_concat_ne {e x : α} (h : x ≠ e) :
    since e (events ++ [x]) = since e events ++ [x] := by
  rw [since, List.rtakeWhile_concat_pos _ _ _ (by simpa using h), since]

theorem since_split {e : α} {before later : List α} (h : e ∉ later) :
    since e (before ++ e :: later) = later := by
  induction later using List.reverseRecOn with
  | nil => exact since_concat_self e
  | append_singleton later x ih =>
    rw [List.mem_append, not_or, List.mem_singleton] at h
    rw [← List.cons_append, ← List.append_assoc, since_concat_ne (fun hx => h.2 hx.symm), ih h.1]

/-! ## The events from the first of a kind on -/

/-- How often `e` came from the first event with `p` on. -/
def countFrom (p : α → Bool) (e : α) (events : List α) : ℕ :=
  (events.dropWhile fun x => !p x).count e

variable {p : α → Bool} {e : α}

theorem countFrom_eq_zero (h : ∀ x ∈ events, p x = false) : countFrom p e events = 0 := by
  rw [countFrom, List.dropWhile_eq_nil_iff.mpr, List.count_nil]
  intro x hx
  rw [h x hx]
  rfl

theorem countFrom_concat (x : α) (he : p e = false) :
    countFrom p e (events ++ [x]) =
      countFrom p e events + if (∃ y ∈ events, p y = true) ∧ x = e then 1 else 0 := by
  by_cases hp : ∃ y ∈ events, p y = true
  · have hempty : ¬ (events.dropWhile fun x => !p x).isEmpty = true := by
      rw [List.isEmpty_iff, List.dropWhile_eq_nil_iff]
      obtain ⟨y, hy, hpy⟩ := hp
      intro h
      simpa [hpy] using h y hy
    rw [countFrom, List.dropWhile_append, if_neg hempty, List.count_append, List.count_singleton]
    simp [hp, countFrom]
  · have hnone : ∀ y ∈ events, p y = false := by simpa using hp
    rw [countFrom_eq_zero hnone, countFrom, List.dropWhile_append_of_pos]
    · rw [if_neg fun h => hp h.1]
      cases hx : p x with
      | true =>
        have hne : x ≠ e := fun h => by rw [h, he] at hx; cases hx
        simp [hx, hne]
      | false => simp [hx]
    · intro y hy
      simp [hnone y hy]

theorem count_le_countFrom {start : α} (hstart : p start = true) (e : α) (before later : List α) :
    later.count e ≤ countFrom p e (before ++ start :: later) := by
  have hsuffix : later <:+ (before ++ start :: later).dropWhile fun x => !p x := by
    rw [List.dropWhile_append]
    split
    · rw [List.dropWhile_cons_of_neg (by simp [hstart])]
      exact List.suffix_cons _ _
    · exact (List.suffix_cons _ _).trans (List.suffix_append _ _)
  exact hsuffix.sublist.count_le e

end History
