import GhReport.Library.Fairness
import Mathlib.Data.Fintype.Card
import Mathlib.Data.Fintype.Lattice

/-! # The fence between writers

Any number of writers append to one log. A writer reads the sequence number that was
committed last, and its append is refused if that has moved on since. A writer that was
refused reads again; the other way, to insist on what it read, is modelled beside it.
-/

namespace GhReport.Spec.OccFence

/-- What a writer that was refused does about its read. -/
inductive OnConflict where
  | rearm
  | retryToWin

structure Writer where
  readSeq : Option ℕ
  done : Bool
deriving DecidableEq

def OnConflict.writer : OnConflict → Writer → Writer
  | rearm, x => { x with readSeq := none }
  | retryToWin, x => x

structure State (n : ℕ) where
  committedSeq : ℕ
  log : List (Fin n)
  writers : Fin n → Writer

inductive Action (n : ℕ) where
  | readAuthoritative (w : Fin n)
  | attemptAppend (w : Fin n)

def Action.actor {n : ℕ} : Action n → Fin n
  | readAuthoritative w | attemptAppend w => w

variable {n : ℕ}

def State.set (s : State n) (w : Fin n) (x : Writer) : State n :=
  { s with writers := Function.update s.writers w x }

def readAuthoritative (s : State n) (w : Fin n) : Option (State n) :=
  if (s.writers w).done then none
  else if (s.writers w).readSeq.isSome then none
  else some (s.set w { s.writers w with readSeq := some s.committedSeq })

def attemptAppend (onConflict : OnConflict) (s : State n) (w : Fin n) : Option (State n) :=
  match (s.writers w).readSeq with
  | none => none
  | some readSeq =>
    if s.committedSeq = readSeq then
      some ({ s with committedSeq := s.committedSeq + 1, log := s.log ++ [w] }.set w ⟨none, true⟩)
    else some (s.set w (onConflict.writer (s.writers w)))

def system (n : ℕ) (onConflict : OnConflict) : ActionSystem (State n) (Action n) where
  start := ⟨0, [], fun _ => ⟨none, false⟩⟩
  next s a :=
    match a with
    | .readAuthoritative w => readAuthoritative s w
    | .attemptAppend w => attemptAppend onConflict s w

/-! ## Steps -/

inductive Moves (onConflict : OnConflict) (s : State n) : Action n → State n → Prop
  | read {w : Fin n} (hdone : (s.writers w).done = false) (hread : (s.writers w).readSeq = none) :
      Moves onConflict s (.readAuthoritative w) (s.set w ⟨some s.committedSeq, false⟩)
  | commit {w : Fin n} (hread : (s.writers w).readSeq = some s.committedSeq) :
      Moves onConflict s (.attemptAppend w)
        ({ s with committedSeq := s.committedSeq + 1, log := s.log ++ [w] }.set w ⟨none, true⟩)
  | conflict {w : Fin n} {readSeq : ℕ} (hread : (s.writers w).readSeq = some readSeq)
      (hne : s.committedSeq ≠ readSeq) :
      Moves onConflict s (.attemptAppend w) (s.set w (onConflict.writer (s.writers w)))

variable {onConflict : OnConflict} {s s' : State n} {a : Action n} {w : Fin n}

theorem next_iff : (system n onConflict).next s a = some s' ↔ Moves onConflict s a s' := by
  constructor
  · intro h
    cases a with
    | readAuthoritative w =>
      simp only [system, readAuthoritative] at h
      split_ifs at h with hdone hread
      cases h
      have hdone : (s.writers w).done = false := by simpa using hdone
      rw [hdone]
      exact .read hdone (by simpa using hread)
    | attemptAppend w =>
      simp only [system, attemptAppend] at h
      split at h
      · cases h
      · rename_i readSeq hread
        split_ifs at h with heq
        · cases h
          exact .commit (heq ▸ hread)
        · cases h
          exact .conflict hread heq
  · rintro (⟨hdone, hread⟩ | ⟨hread⟩ | ⟨hread, hne⟩)
    · simp [system, readAuthoritative, hdone, hread]
    · simp [system, attemptAppend, hread]
    · simp [system, attemptAppend, hread, hne]

@[simp] theorem set_writers_self (x : Writer) : (s.set w x).writers w = x :=
  Function.update_self ..

@[simp] theorem set_committedSeq (x : Writer) : (s.set w x).committedSeq = s.committedSeq := rfl

@[simp] theorem set_log (x : Writer) : (s.set w x).log = s.log := rfl

/-- Nobody reads or writes for another. -/
theorem Moves.writers_of_ne (h : Moves onConflict s a s') (hne : w ≠ a.actor) :
    s'.writers w = s.writers w := by
  cases h <;> exact Function.update_of_ne hne ..

theorem Moves.committedSeq_le (h : Moves onConflict s a s') :
    s.committedSeq ≤ s'.committedSeq := by
  cases h with
  | read | conflict => exact le_rfl
  | commit => exact Nat.le_succ _

/-- A writer that has read nothing can only read. -/
theorem Moves.readSeq_of_none (h : Moves onConflict s a s') (hactor : w = a.actor)
    (hread : (s.writers w).readSeq = none) : (s'.writers w).readSeq = some s'.committedSeq := by
  subst hactor
  cases h with
  | read => rw [Action.actor, set_writers_self, set_committedSeq]
  | commit hsome | conflict hsome => cases hread.symm.trans hsome

/-- A writer whose read is the latest can only commit. -/
theorem Moves.committedSeq_of_fresh (h : Moves onConflict s a s') (hactor : w = a.actor)
    (hread : (s.writers w).readSeq = some s.committedSeq) :
    s'.committedSeq = s.committedSeq + 1 := by
  subst hactor
  cases h with
  | read hdone hnone => cases hread.symm.trans hnone
  | commit => rfl
  | conflict hsome hne =>
    cases hread.symm.trans hsome
    exact absurd rfl hne

/-- A writer that was overtaken can only be refused. -/
theorem Moves.set_of_overtaken (h : Moves onConflict s a s') (hactor : w = a.actor) {r : ℕ}
    (hread : (s.writers w).readSeq = some r) (hlt : r < s.committedSeq) :
    s' = s.set w (onConflict.writer (s.writers w)) := by
  subst hactor
  cases h with
  | read hdone hnone => cases hread.symm.trans hnone
  | commit hfresh =>
    cases hread.symm.trans hfresh
    exact absurd hlt (lt_irrefl _)
  | conflict => rfl

theorem OnConflict.writer_done (onConflict : OnConflict) (x : Writer) :
    (onConflict.writer x).done = x.done := by
  cases onConflict <;> rfl

theorem OnConflict.readSeq_of_writer {x : Writer} {r : ℕ}
    (h : (onConflict.writer x).readSeq = some r) : x.readSeq = some r := by
  cases onConflict with
  | rearm => cases h
  | retryToWin => exact h

/-- A writer that insists on an old read comes to nothing. -/
theorem next_of_overtaken {r : ℕ} (hread : (s.writers w).readSeq = some r)
    (hlt : r < s.committedSeq) : (system n .retryToWin).next s (.attemptAppend w) = some s := by
  rw [next_iff]
  have h : Moves .retryToWin s (.attemptAppend w) (s.set w (s.writers w)) :=
    .conflict hread hlt.ne'
  rwa [State.set, Function.update_eq_self] at h

/-! ## What every step keeps -/

/-- The log holds the writers that are done, each once, and a read is not of the future. -/
structure Valid (s : State n) : Prop where
  committedSeq_eq : s.committedSeq = s.log.length
  nodup : s.log.Nodup
  mem_log : ∀ w, w ∈ s.log ↔ (s.writers w).done = true
  read : ∀ w r, (s.writers w).readSeq = some r → (s.writers w).done = false ∧ r ≤ s.committedSeq

theorem Valid.move (h : Valid s) (hmove : Moves onConflict s a s') : Valid s' := by
  cases hmove with
  | @read w hdone hread =>
    refine ⟨h.committedSeq_eq, h.nodup, fun v => ?_, fun v r hr => ?_⟩
    · rcases eq_or_ne v w with rfl | hne
      · simpa [hdone] using h.mem_log v
      · simpa [State.set, Function.update_of_ne hne] using h.mem_log v
    · rcases eq_or_ne v w with rfl | hne
      · rw [set_writers_self] at hr ⊢
        cases hr
        exact ⟨rfl, le_rfl⟩
      · simp only [State.set, Function.update_of_ne hne] at hr ⊢
        exact h.read v r hr
  | @commit w hread =>
    obtain ⟨hdone, -⟩ := h.read w _ hread
    have hfresh : w ∉ s.log := fun hmem => by
      rw [(h.mem_log w).mp hmem] at hdone
      cases hdone
    refine ⟨?_, ?_, fun v => ?_, fun v r hr => ?_⟩
    · simp [h.committedSeq_eq]
    · exact List.nodup_append.mpr ⟨h.nodup, List.nodup_singleton w, fun v hv x hx hvx =>
        hfresh (List.mem_singleton.mp hx ▸ hvx ▸ hv)⟩
    · rcases eq_or_ne v w with rfl | hne
      · simp
      · simpa [State.set, Function.update_of_ne hne, hne] using h.mem_log v
    · rcases eq_or_ne v w with rfl | hne
      · rw [set_writers_self] at hr
        cases hr
      · simp only [State.set, Function.update_of_ne hne] at hr ⊢
        exact ⟨(h.read v r hr).1, Nat.le_succ_of_le (h.read v r hr).2⟩
  | @conflict w readSeq hread hne =>
    refine ⟨h.committedSeq_eq, h.nodup, fun v => ?_, fun v r hr => ?_⟩
    · rcases eq_or_ne v w with rfl | hne
      · simpa [OnConflict.writer_done] using h.mem_log v
      · simpa [State.set, Function.update_of_ne hne] using h.mem_log v
    · rcases eq_or_ne v w with rfl | hne
      · rw [set_writers_self] at hr ⊢
        rw [OnConflict.writer_done]
        exact h.read v r (OnConflict.readSeq_of_writer hr)
      · simp only [State.set, Function.update_of_ne hne] at hr ⊢
        exact h.read v r hr

theorem reached_valid (as : List (Action n)) : Valid ((system n onConflict).reached as) := by
  refine ActionSystem.invariant (I := Valid) ⟨rfl, List.nodup_nil, fun w => ?_, fun w r hr => ?_⟩
    (fun s a s' hs h => hs.move (next_iff.mp h)) as
  · simp [system]
  · cases hr

theorem Valid.committedSeq_le (h : Valid s) : s.committedSeq ≤ n := by
  calc s.committedSeq = s.log.length := h.committedSeq_eq
    _ ≤ Fintype.card (Fin n) := h.nodup.length_le_card
    _ = n := Fintype.card_fin n

/--
However many writers there are, in whatever order they act, and whatever they do about
a conflict: the log holds every writer that is done once and no other, at as many
positions as were committed, and a step commits nothing but one write at the next position,
by a writer whose read is still the latest.
-/
theorem exactly_one_commit_per_seq (onConflict : OnConflict) (as : List (Action n)) :
    let s := (system n onConflict).reached as
    s.committedSeq = s.log.length ∧ s.committedSeq ≤ n ∧ s.log.Nodup ∧
      (∀ w, w ∈ s.log ↔ (s.writers w).done = true) ∧
      ∀ a s', (system n onConflict).next s a = some s' →
        s'.committedSeq = s.committedSeq ∧ s'.log = s.log ∨
        ∃ w, a = .attemptAppend w ∧ (s.writers w).readSeq = some s.committedSeq ∧
          s'.committedSeq = s.committedSeq + 1 ∧ s'.log = s.log ++ [w] := by
  intro s
  have h : Valid s := reached_valid as
  refine ⟨h.committedSeq_eq, h.committedSeq_le, h.nodup, h.mem_log, fun a s' hnext => ?_⟩
  cases next_iff.mp hnext with
  | read | conflict => exact .inl ⟨rfl, rfl⟩
  | commit hread => exact .inr ⟨_, rfl, hread, rfl, rfl⟩

/-! ## What a fair schedule brings about -/

section Fair

variable {b : (system n onConflict).Behaviour}

theorem state_valid (m : ℕ) : Valid (b.state m) := by
  obtain ⟨as, has⟩ := b.exists_reached m
  exact has ▸ reached_valid as

theorem committedSeq_mono {m k : ℕ} (h : m ≤ k) :
    (b.state m).committedSeq ≤ (b.state k).committedSeq :=
  b.holds_from (P := fun s => (b.state m).committedSeq ≤ s.committedSeq)
    (fun _ _ _ hle hnext => hle.trans (next_iff.mp hnext).committedSeq_le) le_rfl h

theorem done_from {m k : ℕ} (hdone : ((b.state m).writers w).done = true) (h : m ≤ k) :
    ((b.state k).writers w).done = true := by
  refine b.holds_from (P := fun s => (s.writers w).done = true) (fun s a s' hs hnext => ?_) hdone h
  have hmoves := next_iff.mp hnext
  by_cases hactor : w = a.actor
  · cases hmoves with
    | @read v hv =>
      obtain rfl : w = v := hactor
      rw [hs] at hv
      cases hv
    | @commit v =>
      obtain rfl : w = v := hactor
      rw [set_writers_self]
    | @conflict v =>
      obtain rfl : w = v := hactor
      rw [set_writers_self, OnConflict.writer_done, hs]
  · rwa [hmoves.writers_of_ne hactor]

/-- As each writer commits once at most, there comes a time when no more is committed. -/
theorem exists_settled (b : (system n onConflict).Behaviour) :
    ∃ m, ∀ k ≥ m, (b.state k).committedSeq = (b.state m).committedSeq := by
  obtain ⟨m, hm⟩ := b.exists_settled (f := fun s => n - s.committedSeq) fun k =>
    Nat.sub_le_sub_left (committedSeq_mono (Nat.le_succ k)) n
  refine ⟨m, fun k hk => ?_⟩
  have := hm k hk
  have := (state_valid (b := b) k).committedSeq_le
  have := (state_valid (b := b) m).committedSeq_le
  omega

/-- A writer that is to read does so. -/
theorem reads (hfair : b.FairTo {.readAuthoritative w}) {m : ℕ}
    (hdone : ((b.state m).writers w).done = false)
    (hread : ((b.state m).writers w).readSeq = none) :
    ∃ k ≥ m, ((b.state k).writers w).readSeq = some (b.state k).committedSeq := by
  refine hfair.eventually
    (P := fun s => (s.writers w).done = false ∧ (s.writers w).readSeq = none)
    (Q := fun s => (s.writers w).readSeq = some s.committedSeq) ⟨hdone, hread⟩ ?_ ?_ ?_
  · rintro k - ⟨hdone, hread⟩
    exact ⟨_, rfl, Option.isSome_of_mem (next_iff.mpr (.read hdone hread))⟩
  · rintro k - ⟨hdone, hread⟩
    rcases b.next_eq k with heq | ⟨a, hnext⟩
    · exact .inl (heq ▸ ⟨hdone, hread⟩)
    · have hmoves := next_iff.mp hnext
      by_cases hactor : w = a.actor
      · exact .inr (hmoves.readSeq_of_none hactor hread)
      · rw [hmoves.writers_of_ne hactor]
        exact .inl ⟨hdone, hread⟩
  · rintro k - ⟨_, hread⟩ ⟨a, rfl, hnext⟩
    exact (next_iff.mp hnext).readSeq_of_none rfl hread

/-- A writer that was overtaken is refused, and then it is to read again. -/
theorem rearms {b : (system n .rearm).Behaviour} (hfair : b.FairTo {.attemptAppend w})
    {m r : ℕ} (hread : ((b.state m).writers w).readSeq = some r)
    (hlt : r < (b.state m).committedSeq) :
    ∃ k ≥ m, ((b.state k).writers w).readSeq = none := by
  refine hfair.eventually
    (P := fun s => (s.writers w).readSeq = some r ∧ r < s.committedSeq)
    (Q := fun s => (s.writers w).readSeq = none) ⟨hread, hlt⟩ ?_ ?_ ?_
  · rintro k - ⟨hread, hlt⟩
    exact ⟨_, rfl, Option.isSome_of_mem (next_iff.mpr (.conflict hread hlt.ne'))⟩
  · rintro k - ⟨hread, hlt⟩
    rcases b.next_eq k with heq | ⟨a, hnext⟩
    · exact .inl (heq ▸ ⟨hread, hlt⟩)
    · have hmoves := next_iff.mp hnext
      by_cases hactor : w = a.actor
      · rw [hmoves.set_of_overtaken hactor hread hlt, set_writers_self]
        exact .inr rfl
      · rw [hmoves.writers_of_ne hactor]
        exact .inl ⟨hread, hlt.trans_le hmoves.committedSeq_le⟩
  · rintro k - ⟨hread, hlt⟩ ⟨a, rfl, hnext⟩
    rw [(next_iff.mp hnext).set_of_overtaken (w := w) rfl hread hlt, set_writers_self]
    rfl

/-- Once no more is committed, nobody holds a read of the latest any more. -/
theorem not_fresh (hfair : b.FairTo {.attemptAppend w}) {m k : ℕ}
    (hsettled : ∀ k ≥ m, (b.state k).committedSeq = (b.state m).committedSeq) (hk : m ≤ k) :
    ((b.state k).writers w).readSeq ≠ some (b.state k).committedSeq := by
  intro hread
  have hcommits : ∀ l ≥ k, ((b.state l).writers w).readSeq = some (b.state l).committedSeq →
      ∀ a, w = a.actor → ¬ (system n onConflict).next (b.state l) a = some (b.state (l + 1)) := by
    intro l hl hread a hactor hnext
    have := (next_iff.mp hnext).committedSeq_of_fresh hactor hread
    have := hsettled l (hk.trans hl)
    have := hsettled (l + 1) (Nat.le_succ_of_le (hk.trans hl))
    omega
  obtain ⟨-, -, hfalse⟩ := hfair.eventually
    (P := fun s => (s.writers w).readSeq = some s.committedSeq) (Q := fun _ => False) hread
    (fun l _ hread => ⟨_, rfl, Option.isSome_of_mem (next_iff.mpr (.commit hread))⟩) (by
      intro l hl hread
      rcases b.next_eq l with heq | ⟨a, hnext⟩
      · exact .inl (heq ▸ hread)
      · by_cases hactor : w = a.actor
        · exact absurd hnext (hcommits l hl hread a hactor)
        · rw [(next_iff.mp hnext).writers_of_ne hactor, hsettled (l + 1) (by omega),
            ← hsettled l (by omega)]
          exact .inl hread) (by
      rintro l hl hread ⟨a, rfl, hnext⟩
      exact hcommits l hl hread _ rfl hnext)
  exact hfalse

/-- Where no writer is stuck with an old read, every writer commits. -/
theorem eventually_done (hfair : ∀ w, b.FairTo {.readAuthoritative w})
    (hfair' : ∀ w, b.FairTo {.attemptAppend w})
    (hfree : ∀ w m r, ((b.state m).writers w).readSeq = some r → r < (b.state m).committedSeq →
      ∃ k ≥ m, ((b.state k).writers w).readSeq = none) :
    ∃ m, ∀ k ≥ m, ∀ w, ((b.state k).writers w).done = true := by
  obtain ⟨m, hsettled⟩ := exists_settled b
  have hdone : ∀ w, ∃ k, ((b.state k).writers w).done = true := by
    intro w
    by_contra! hnever
    have hundone : ∀ k, ((b.state k).writers w).done = false := fun k => by simpa using hnever k
    have hnone : ∀ k ≥ m, ((b.state k).writers w).readSeq ≠ none := fun k hk hread => by
      obtain ⟨l, hl, hfresh⟩ := reads (hfair w) (hundone k) hread
      exact not_fresh (hfair' w) hsettled (hk.trans hl) hfresh
    cases hread : ((b.state m).writers w).readSeq with
    | none => exact hnone m le_rfl hread
    | some r =>
      rcases ((state_valid m).read w r hread).2.eq_or_lt with rfl | hlt
      · exact not_fresh (hfair' w) hsettled le_rfl hread
      · obtain ⟨k, hk, hread⟩ := hfree w m r hread hlt
        exact hnone k hk hread
  choose time htime using hdone
  exact ⟨Finset.univ.sup time, fun k hk w =>
    done_from (htime w) ((Finset.le_sup (Finset.mem_univ w)).trans hk)⟩

end Fair

/--
If every writer reads and tries to append as long as it can, then from some time on
every one of them has committed, however many there are and however often they collide.
-/
theorem every_writer_eventually_commits (b : (system n .rearm).Behaviour)
    (hread : ∀ w, b.FairTo {.readAuthoritative w}) (happend : ∀ w, b.FairTo {.attemptAppend w}) :
    ∃ m, ∀ k ≥ m, ∀ w, ((b.state k).writers w).done = true ∧ w ∈ (b.state k).log := by
  obtain ⟨m, hm⟩ := eventually_done hread happend fun w m r hr hlt => rearms (happend w) hr hlt
  exact ⟨m, fun k hk w => ⟨hm k hk w, ((state_valid k).mem_log w).mpr (hm k hk w)⟩⟩

/-- Two writers that read the same; the second is refused, reads again and commits. -/
def sampleCollision : List (Action 2) :=
  [.readAuthoritative 0, .readAuthoritative 1, .attemptAppend 0, .attemptAppend 1,
    .readAuthoritative 1, .attemptAppend 1]

theorem every_writer_eventually_commits_collision :
    let b := (system 2 .rearm).script sampleCollision
    ∃ m, ∀ k ≥ m, ∀ w, ((b.state k).writers w).done = true ∧ w ∈ (b.state k).log := by
  refine every_writer_eventually_commits _ (fun w => ActionSystem.script_fairTo ?_)
    fun w => ActionSystem.script_fairTo ?_
  · rintro ⟨a, rfl, henabled⟩
    revert w
    decide
  · rintro ⟨a, rfl, henabled⟩
    revert w
    decide

/-- A writer that insists on an old read is stuck with it. -/
theorem stuck_from {b : (system n .retryToWin).Behaviour} {m k r : ℕ}
    (hread : ((b.state m).writers w).readSeq = some r) (hlt : r < (b.state m).committedSeq)
    (hk : m ≤ k) : ((b.state k).writers w).readSeq = some r := by
  refine (b.holds_from (P := fun s => (s.writers w).readSeq = some r ∧ r < s.committedSeq)
    ?_ ⟨hread, hlt⟩ hk).1
  rintro s a s' ⟨hread, hlt⟩ hnext
  have hmoves := next_iff.mp hnext
  refine ⟨?_, hlt.trans_le hmoves.committedSeq_le⟩
  by_cases hactor : w = a.actor
  · rw [hmoves.set_of_overtaken hactor hread hlt, set_writers_self]
    exact hread
  · rwa [hmoves.writers_of_ne hactor]

/--
With writers that insist on what they read, a fair schedule brings all of them to commit
just if none of them is ever overtaken between its read and its append.
-/
theorem retry_eventually_commits_iff (b : (system n .retryToWin).Behaviour)
    (hread : ∀ w, b.FairTo {.readAuthoritative w}) (happend : ∀ w, b.FairTo {.attemptAppend w}) :
    (∃ m, ∀ k ≥ m, ∀ w, ((b.state k).writers w).done = true) ↔
      ∀ w m r, ((b.state m).writers w).readSeq = some r → r = (b.state m).committedSeq := by
  constructor
  · rintro ⟨m, hm⟩ w k r hr
    have hvalid := (state_valid k).read w r hr
    refine hvalid.2.eq_or_lt.resolve_right fun hlt => ?_
    have hstuck := stuck_from hr hlt (Nat.le_max_right m k)
    have hundone := ((state_valid _).read w r hstuck).1
    rw [hm _ (Nat.le_max_left m k) w] at hundone
    cases hundone
  · intro hfresh
    exact eventually_done hread happend fun w m r hr hlt => absurd (hfresh w m r hr) hlt.ne

/-- The same two writers, where the second insists. -/
def sampleStuck : List (Action 2) :=
  [.readAuthoritative 0, .readAuthoritative 1, .attemptAppend 0]

theorem retry_eventually_commits_stuck :
    let b := (system 2 .retryToWin).script sampleStuck
    ¬ ∃ m, ∀ k ≥ m, ∀ w, ((b.state k).writers w).done = true := by
  intro b hdone
  have hread : ∀ w, b.FairTo {.readAuthoritative w} := fun w => by
    refine ActionSystem.script_fairTo ?_
    rintro ⟨a, rfl, henabled⟩
    revert w
    decide
  have happend : ∀ w, b.FairTo {.attemptAppend w} := fun w => by
    cases w using Fin.cases with
    | zero =>
      refine ActionSystem.script_fairTo ?_
      rintro ⟨a, rfl, henabled⟩
      revert henabled
      decide
    | succ w =>
      obtain rfl : w = 0 := Subsingleton.elim ..
      exact ActionSystem.script_fairTo_of_loop rfl (next_of_overtaken (r := 0) rfl (by decide))
  have hstale := (retry_eventually_commits_iff b hread happend).mp hdone 1 3 0 rfl
  revert hstale
  decide

end GhReport.Spec.OccFence
