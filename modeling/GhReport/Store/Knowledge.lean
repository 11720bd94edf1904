import GhReport.Library.Machine
import GhReport.Library.WireFormat
import GhReport.Store.Inner

/-! # What a store handle knows

A handle that lost track of a write refuses every later call and changes nothing.
A handle that is ready caches exactly what it loaded and what it landed since.
-/

namespace GhReport.Store

open ByteCodec Pardosa

/-! ## Calls on one handle -/

/-- The calls on a handle, with the answers of the backend to each. -/
inductive Call (E : Type) : Type 1 where
  | record (a : SessionAnswers) (domainKey : String) (event : E)
  | detach (a : SessionAnswers) (domainKey : String) (event : E)
  | events
  | foldEvents {R : Type} (init : R) (fold : R → Bool → E → R)
  | foldDefinedEvents {R : Type} (init : R) (fold : R → E → R)
  /-- A fold whose callback panics while it holds the cache. -/
  | foldPanics
  | resync (read : Except StoreError Unit)
  | preflight (a : SessionAnswers)

inductive Reply (E : Type) : Type 1 where
  | done
  | detached (landed : Bool)
  | events (events : List (Bool × E))
  | folded {R : Type} (result : R)
  | panicked

/-- A call, or an envelope that another writer lands in the same journal. -/
inductive Input (E : Type) : Type 1 where
  | call (call : Call E)
  | foreign (envelope : Envelope)

/-- What a call returns; nothing is returned to anyone for a foreign envelope. -/
abbrev Answer (E : Type) := Option (Except StoreError (Reply E))

namespace StoreInner

variable {E : Type} (S : Schema E) (deriveFiberId : String → FiberId)

/-- Take the cache lock and panic under it. -/
def foldPanics (s : StoreInner E) : Except StoreError (Reply E) × StoreInner E :=
  match s.lockCached with
  | .error e => (.error e, s)
  | .ok _ => (.ok .panicked, { s with cached := { s.cached with poisoned := true } })

def call (s : StoreInner E) : Call E → Except StoreError (Reply E) × StoreInner E
  | .record a domainKey event =>
    let (r, s) := record S deriveFiberId a s domainKey event
    (r.map fun _ => .done, s)
  | .detach a domainKey event =>
    let (r, s) := detach S deriveFiberId a s domainKey event
    (r.map .detached, s)
  | .events => (s.events.map .events, s)
  | .foldEvents init fold => ((s.foldEvents init fold).map .folded, s)
  | .foldDefinedEvents init fold => ((s.foldDefinedEvents init fold).map .folded, s)
  | .foldPanics => s.foldPanics
  | .resync read =>
    let (r, s) := resyncFromAuthoritative S read s
    (r.map fun _ => .done, s)
  | .preflight a => ((preflightWriteLease a s).map fun _ => .done, s)

def machine : Machine (StoreInner E) (Input E) (Answer E) where
  step s
    | .call c => (some (call S deriveFiberId s c).1, (call S deriveFiberId s c).2)
    | .foreign envelope => (none, { s with journal := s.journal ++ [⟨false, envelope⟩] })

/-- The ways to come by a handle. -/
inductive Obtained : StoreInner E → Prop where
  | create : Obtained create
  | openStore {journal : List Envelope} {s : StoreInner E} (h : openStore S journal = .ok s) :
      Obtained s

/-- The envelopes this handle has loaded, and those it landed since, in order. -/
def seen (s : StoreInner E) : List Envelope :=
  ((s.journal.take s.loadedAt) ++ (s.journal.drop s.loadedAt).filter (·.own)).map (·.envelope)

/-- The error a handle keeps giving, if it lost track of a write. -/
def latched : WriteKnowledge → Option StoreError
  | .ready => none
  | .unknown carriedEpoch => some (.indeterminate carriedEpoch)
  | .landed => some .landedNeedsReconciliation

variable {S deriveFiberId}

/-! ## A latched handle -/

/-- The handle has lost track of a write and answers `e`. -/
structure Latched (e : StoreError) (s : StoreInner E) : Prop where
  knowledge : latched s.knowledge.value = some e
  sound : s.knowledge.poisoned = false

theorem Latched.lockKnowledge {e : StoreError} {s : StoreInner E} (h : Latched e s) :
    s.lockKnowledge = .error e := by
  obtain ⟨hk, hp⟩ := h
  unfold StoreInner.lockKnowledge
  rw [hp]
  cases hv : s.knowledge.value with
  | ready => rw [hv] at hk; cases hk
  | unknown carriedEpoch => rw [hv] at hk; cases hk; rfl
  | landed => rw [hv] at hk; cases hk; rfl

theorem Latched.lockCached {e : StoreError} {s : StoreInner E} (h : Latched e s) :
    s.lockCached = .error e := by
  unfold StoreInner.lockCached
  rw [h.lockKnowledge]
  rfl

theorem Latched.prepare {e : StoreError} {s : StoreInner E} (h : Latched e s)
    (a : SessionAnswers) (event : E) : prepare S a s event = .error e := by
  unfold StoreInner.prepare
  rw [h.lockKnowledge]
  rfl

/-- Every call on a latched handle answers with the latch and leaves the handle as it was. -/
theorem Latched.call {e : StoreError} {s : StoreInner E} (h : Latched e s) (c : Call E) :
    call S deriveFiberId s c = (.error e, s) := by
  cases c with
  | record a domainKey event => simp only [StoreInner.call, record, h.prepare]; rfl
  | detach a domainKey event => simp only [StoreInner.call, detach, h.prepare]; rfl
  | events => simp only [StoreInner.call, events, h.lockCached]; rfl
  | foldEvents init fold => simp only [StoreInner.call, foldEvents, h.lockCached]; rfl
  | foldDefinedEvents init fold =>
    simp only [StoreInner.call, foldDefinedEvents, h.lockCached]; rfl
  | foldPanics => simp only [StoreInner.call, foldPanics, h.lockCached]
  | resync read => simp only [StoreInner.call, resyncFromAuthoritative, h.lockKnowledge]; rfl
  | preflight a => simp only [StoreInner.call, preflightWriteLease, h.lockKnowledge]; rfl

theorem Latched.step {e : StoreError} {s : StoreInner E} (h : Latched e s) (c : Call E) :
    (machine S deriveFiberId).step s (.call c) = (some (.error e), s) := by
  simp only [machine, h.call]

/-! ## A ready handle -/

/-- While no write is lost, the cache is what was loaded and landed, decoded in order. -/
structure Coherent (S : Schema E) (s : StoreInner E) : Prop where
  sound : s.knowledge.poisoned = false
  loaded : s.loadedAt ≤ s.journal.length
  cached : latched s.knowledge.value = none →
    (seen s).mapM (decodeEnvelope S) = .ok s.cached.value

theorem ready_of_lockKnowledge {s : StoreInner E} (h : s.lockKnowledge = .ok ()) :
    s.knowledge.value = .ready := by
  unfold lockKnowledge at h
  split at h
  · cases h
  · cases hv : s.knowledge.value with
    | ready => rfl
    | unknown carriedEpoch => rw [hv] at h; cases h
    | landed => rw [hv] at h; cases h

theorem seen_append {s : StoreInner E} (hloaded : s.loadedAt ≤ s.journal.length)
    (entry : JournalEntry) :
    seen { s with journal := s.journal ++ [entry] } =
      seen s ++ if entry.own then [entry.envelope] else [] := by
  unfold seen
  rw [List.take_append_of_le_length hloaded, List.drop_append_of_le_length hloaded,
    List.filter_append]
  cases h : entry.own <;> simp [h]

theorem decodeEnvelope_encoded {detached : Bool} {fiberId : FiberId} {payload : List UInt8}
    {event : E} (h : S.encodePayload event = .ok payload) :
    decodeEnvelope S ⟨detached, fiberId, payload⟩ = .ok (detached, fiberId, event) := by
  unfold decodeEnvelope
  rw [S.decodePayload_of_encodePayload h]
  rfl

theorem mapM_concat_ok {ε α β : Type} {f : α → Except ε β} {xs : List α} {ys : List β} {x : α}
    {y : β} (hxs : xs.mapM f = .ok ys) (hx : f x = .ok y) :
    (xs ++ [x]).mapM f = .ok (ys ++ [y]) := by
  rw [List.mapM_append, hxs]
  simp [hx]

/-- Every exit of a write keeps the handle coherent. -/
theorem Coherent.wrote {s s' : StoreInner E} {detached : Bool} {fiberId : FiberId} {event : E}
    {r : Except StoreError Unit} (h : Coherent S s)
    (hw : Wrote S detached fiberId event s r s') : Coherent S s' := by
  cases hw with
  | refused e => exact h
  | undetermined carriedEpoch applied payload =>
    constructor
    · exact h.sound
    · cases applied with
      | true => exact h.loaded.trans (by simp)
      | false => exact h.loaded
    · intro hready; cases hready
  | unsettled e payload =>
    constructor
    · exact h.sound
    · exact h.loaded.trans (by simp)
    · intro hready; cases hready
  | done payload hready hpayload =>
    constructor
    · exact h.sound
    · exact h.loaded.trans (by simp)
    · intro _
      have hcached := h.cached (by rw [ready_of_lockKnowledge hready]; rfl)
      have hseen := seen_append h.loaded ⟨true, detached, fiberId, payload⟩
      change (seen { s with journal := s.journal ++ [⟨true, detached, fiberId, payload⟩] }).mapM
        (decodeEnvelope S) = _
      rw [hseen]
      exact mapM_concat_ok hcached (decodeEnvelope_encoded hpayload)

theorem Coherent.resync {s : StoreInner E} (h : Coherent S s) (read : Except StoreError Unit) :
    Coherent S (resyncFromAuthoritative S read s).2 := by
  unfold resyncFromAuthoritative
  split
  · exact h
  · exact h
  · exact h
  · rename_i cached hk hr hcached
    split
    · exact h
    · constructor
      · exact h.sound
      · exact le_rfl
      · intro _
        simpa [seen, Function.comp_def] using hcached

theorem Coherent.step {s : StoreInner E} (h : Coherent S s) (i : Input E) :
    Coherent S ((machine S deriveFiberId).step s i).2 := by
  cases i with
  | foreign envelope =>
    constructor
    · exact h.sound
    · exact h.loaded.trans (by simp [machine])
    · intro hready
      have hseen := seen_append h.loaded ⟨false, envelope⟩
      simp only [Bool.false_eq_true, if_false, List.append_nil] at hseen
      change (seen { s with journal := s.journal ++ [⟨false, envelope⟩] }).mapM
        (decodeEnvelope S) = _
      rw [hseen]
      exact h.cached hready
  | call c =>
    change Coherent S (StoreInner.call S deriveFiberId s c).2
    cases c with
    | record a domainKey event => exact h.wrote (record_wrote S deriveFiberId a s domainKey event)
    | detach a domainKey event =>
      rcases detach_wrote S deriveFiberId a s domainKey event with ⟨_, _, _, hsame⟩ | ⟨r, _, hw, _⟩
      · simp only [StoreInner.call, hsame]
        exact h
      · exact h.wrote hw
    | foldPanics =>
      simp only [StoreInner.call, foldPanics]
      split
      · exact h
      · exact ⟨h.sound, h.loaded, h.cached⟩
    | resync read => exact h.resync read
    | events | foldEvents init fold | foldDefinedEvents init fold | preflight a => exact h

theorem Coherent.of_obtained {s : StoreInner E} (h : Obtained S s) : Coherent S s := by
  cases h with
  | create => exact ⟨rfl, le_rfl, fun _ => rfl⟩
  | @openStore journal s h =>
    unfold StoreInner.openStore at h
    cases hc : journal.mapM (decodeEnvelope S) with
    | error e => rw [hc] at h; cases h
    | ok cached =>
      rw [hc] at h
      cases h
      constructor
      · rfl
      · simp
      · intro _
        have hdrop : (journal.map fun envelope => (⟨false, envelope⟩ : JournalEntry)).drop
            journal.length = [] := List.drop_eq_nil_of_le (by simp)
        simpa [seen, hdrop, Function.comp_def] using hc

/-- A handle stays coherent whatever is called on it and whoever else writes. -/
theorem coherent_after {s : StoreInner E} (h : Obtained S s) (is : List (Input E)) :
    Coherent S ((machine S deriveFiberId).after s is) :=
  Machine.invariant (fun _ i hs => hs.step i) (Coherent.of_obtained h) is

/-- What a latched handle keeps: its cache, its knowledge and the envelopes it landed. -/
structure SameOwn (s s' : StoreInner E) : Prop where
  cached : s'.cached = s.cached
  knowledge : s'.knowledge = s.knowledge
  own : s'.journal.filter (·.own) = s.journal.filter (·.own)

variable (S deriveFiberId) in
/-- A run on a latched handle ends in a latched handle with the same cache and own envelopes. -/
theorem Latched.after {e : StoreError} {s : StoreInner E} (h : Latched e s)
    (is : List (Input E)) :
    Latched e ((machine S deriveFiberId).after s is) ∧
      SameOwn s ((machine S deriveFiberId).after s is) := by
  induction is generalizing s with
  | nil => exact ⟨h, rfl, rfl, rfl⟩
  | cons i is ih =>
    rw [Machine.after_cons]
    cases i with
    | call c =>
      rw [h.step c]
      exact ih h
    | foreign envelope =>
      have h' : Latched e ((machine S deriveFiberId).step s (.foreign envelope)).2 :=
        ⟨h.knowledge, h.sound⟩
      obtain ⟨hl, hs⟩ := ih h'
      exact ⟨hl, hs.cached, hs.knowledge, by rw [hs.own]; simp [machine]⟩

/--
The write-knowledge latch. Once a run left a write unaccounted for, every later call of every
continuation answers with the latch and changes nothing; while none is, the cache is what the
handle loaded and landed, decoded in order.
-/
theorem knowledge_latch {s₀ : StoreInner E} (h : Obtained S s₀) (is : List (Input E)) :
    let s := (machine S deriveFiberId).after s₀ is
    (∀ e, latched s.knowledge.value = some e → ∀ later c,
      let s' := (machine S deriveFiberId).after s later
      SameOwn s s' ∧
        (machine S deriveFiberId).step s' (.call c) = (some (.error e), s')) ∧
    (s.knowledge.value = .ready →
      (seen s).mapM (decodeEnvelope S) = .ok s.cached.value) := by
  intro s
  have hs : Coherent S s := coherent_after h is
  constructor
  · intro e he later c s'
    obtain ⟨hl, hsame⟩ := Latched.after S deriveFiberId ⟨he, hs.sound⟩ later
    exact ⟨hsame, hl.step c⟩
  · intro hready
    exact hs.cached (by rw [hready]; rfl)

/-- Bytes as events of a store. -/
def byteSchema : Schema UInt8 := ⟨byte (.truncatedPayload 1 0), byte_lawful⟩

/-- A session that lands the write on an active fiber and answers the sync with `sync`. -/
def landing (sync : Except OperationFailure Unit) : SessionAnswers where
  currentEpoch := .ok 1
  openWrite := .ok ()
  fiber := .ok .active
  write := .ok .landed
  sync := sync

theorem knowledge_latch_unsynced :
    let unsynced : OperationFailure := ⟨.transportUnavailable, "sync"⟩
    let s := (machine byteSchema fun _ => 0).after create
      [.call (.record (landing (.ok ())) "a" 1), .call (.record (landing (.error unsynced)) "a" 2)]
    s.journal.length = 2 ∧ s.cached.value = [(false, 0, 1)] ∧
      (machine byteSchema fun _ => 0).step s (.call .events) =
        (some (.error .landedNeedsReconciliation), s) := by
  intro unsynced s
  have h := (@knowledge_latch _ byteSchema (fun _ => 0) _ .create
    [.call (.record (landing (.ok ())) "a" 1), .call (.record (landing (.error unsynced)) "a" 2)]).1
  exact ⟨rfl, rfl, (h .landedNeedsReconciliation rfl [] .events).2⟩

end StoreInner

end GhReport.Store
