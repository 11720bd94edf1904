import GhReport.Library.KeyMap
import GhReport.Library.Effect
import GhReport.Store.Knowledge

/-! # The latest event of every live fiber

A scan of the cache keeps the last event on each fiber and drops the fiber when
it is detached. A handle whose every write takes the fiber of the key its event
carries has no two live fibers with one key.
-/

namespace GhReport.Store

open Std ByteCodec Pardosa

variable {E : Type}

/-- The loop over the cache: the last event of each fiber with its key. -/
def scanLatest (keyFn : E → String) (cached : CachedEvents E) :
    ExtTreeMap FiberId (String × E) compare :=
  cached.foldl (fun latest (detached, fiberId, event) =>
    if detached then latest.erase fiberId
    else latest.insert fiberId (keyFn event, event)) ∅

/-- The order of the values is not fixed in the source; here it is by fiber. -/
def StoreInner.latestDefined (s : StoreInner E) (keyFn : E → String) :
    Except StoreError (List (String × E)) := do
  let cached ← s.lockCached
  .ok (scanLatest keyFn cached).values

/-! ## The scan -/

/-- The fibers of a cache, each once. -/
def fibers (cached : CachedEvents E) : List FiberId := (cached.map fun entry => entry.2.1).dedup

/-- The last entry on a fiber, in line order. -/
def lastOn (cached : CachedEvents E) (fiberId : FiberId) : Option (Bool × FiberId × E) :=
  (cached.filter fun entry => entry.2.1 = fiberId).getLast?

/-- The last event on a fiber with its key, unless the fiber was detached with it. -/
def lastDefined (keyFn : E → String) (cached : CachedEvents E) (fiberId : FiberId) :
    Option (String × E) :=
  match lastOn cached fiberId with
  | some (false, _, event) => some (keyFn event, event)
  | _ => none

theorem lastDefined_eq_some {keyFn : E → String} {cached : CachedEvents E} {fiberId : FiberId}
    {pair : String × E} (h : lastDefined keyFn cached fiberId = some pair) :
    (false, fiberId, pair.2) ∈ cached ∧ pair.1 = keyFn pair.2 := by
  unfold lastDefined at h
  cases hlast : lastOn cached fiberId with
  | none => rw [hlast] at h; cases h
  | some entry =>
    obtain ⟨detached, fiberId', event⟩ := entry
    rw [hlast] at h
    cases detached with
    | true => cases h
    | false =>
      cases h
      obtain ⟨hmem, hfiber⟩ := List.mem_filter.mp (List.mem_of_getLast? hlast)
      obtain rfl : fiberId' = fiberId := of_decide_eq_true hfiber
      exact ⟨hmem, rfl⟩

theorem value_of_lockCached {s : StoreInner E} {cached : CachedEvents E}
    (h : s.lockCached = .ok cached) : s.cached.value = cached := by
  unfold StoreInner.lockCached at h
  obtain ⟨_, _, h⟩ := Except.bind_eq_ok_iff.mp h
  split at h
  · cases h
  · cases h
    rfl

theorem scanLatest_eq (keyFn : E → String) (cached : CachedEvents E) :
    scanLatest keyFn cached = KeyMap.writeAll (fun entry => entry.2.1)
      (fun entry => if entry.1 then none else some (keyFn entry.2.2, entry.2.2)) cached := by
  unfold scanLatest KeyMap.writeAll
  congr 1
  funext latest entry
  obtain ⟨detached, fiberId, event⟩ := entry
  cases detached <;> rfl

theorem lastWritten_eq_lastDefined (keyFn : E → String) (cached : CachedEvents E)
    (fiberId : FiberId) :
    KeyMap.lastWritten (fun entry => entry.2.1)
        (fun entry => if entry.1 then none else some (keyFn entry.2.2, entry.2.2)) cached fiberId =
      lastDefined keyFn cached fiberId := by
  rw [KeyMap.lastWritten, ← lastOn, lastDefined]
  cases lastOn cached fiberId with
  | none => rfl
  | some entry =>
    obtain ⟨detached, fiberId', event⟩ := entry
    cases detached <;> rfl

/-- One pair for each fiber whose last event is defined, and no other. -/
theorem StoreInner.latestDefined_perm {s : StoreInner E} {cached : CachedEvents E}
    (h : s.lockCached = .ok cached) (keyFn : E → String) :
    ∃ pairs, s.latestDefined keyFn = .ok pairs ∧
      pairs.Perm ((fibers cached).filterMap (lastDefined keyFn cached)) := by
  refine ⟨(scanLatest keyFn cached).values, by rw [latestDefined, h]; rfl, ?_⟩
  rw [scanLatest_eq, ← funext (lastWritten_eq_lastDefined keyFn cached)]
  exact KeyMap.values_writeAll_perm _ _ cached

/-! ## Handles that write each event under its key -/

/-- Every entry lies on the fiber of the key that its event carries. -/
def KeyedEntry (deriveFiberId : String → FiberId) (keyFn : E → String)
    (entry : Bool × FiberId × E) : Prop :=
  entry.2.1 = deriveFiberId (keyFn entry.2.2)

/-- The journal and the cache hold keyed entries only. -/
structure FiberKeyed (S : Schema E) (deriveFiberId : String → FiberId) (keyFn : E → String)
    (s : StoreInner E) : Prop where
  journal : ∀ entry ∈ s.journal, ∀ decoded,
    StoreInner.decodeEnvelope S entry.envelope = .ok decoded →
      KeyedEntry deriveFiberId keyFn decoded
  cached : ∀ entry ∈ s.cached.value, KeyedEntry deriveFiberId keyFn entry

section Handles

variable {S : Schema E} {deriveFiberId : String → FiberId} {keyFn : E → String}
  {s : StoreInner E} {event : E}

open StoreInner

/-- Two live fibers have two keys. -/
theorem nodup_keys_of_keyed {cached : CachedEvents E}
    (h : ∀ entry ∈ cached, KeyedEntry deriveFiberId keyFn entry) {pairs : List (String × E)}
    (hpairs : pairs.Perm ((fibers cached).filterMap (lastDefined keyFn cached))) :
    (pairs.map Prod.fst).Nodup := by
  rw [(hpairs.map Prod.fst).nodup_iff, List.map_filterMap]
  refine (List.nodup_dedup _).filterMap ?_
  intro f f' key hkey hkey'
  obtain ⟨pair, hpair, rfl⟩ := Option.map_eq_some_iff.mp hkey
  obtain ⟨pair', hpair', heq⟩ := Option.map_eq_some_iff.mp hkey'
  obtain ⟨hmem, hfst⟩ := lastDefined_eq_some hpair
  obtain ⟨hmem', hfst'⟩ := lastDefined_eq_some hpair'
  have hf : f = deriveFiberId (keyFn pair.2) := h _ hmem
  have hf' : f' = deriveFiberId (keyFn pair'.2) := h _ hmem'
  rw [hf, hf', ← hfst, ← hfst', heq]

/-- One more envelope in the journal, the key of its event its own. -/
theorem FiberKeyed.append_journal (h : FiberKeyed S deriveFiberId keyFn s) (own detached : Bool)
    {payload : List UInt8} (hpayload : S.encodePayload event = .ok payload) :
    FiberKeyed S deriveFiberId keyFn
      { s with
        journal := s.journal ++ [⟨own, detached, deriveFiberId (keyFn event), payload⟩] } := by
  constructor
  · intro entry hentry decoded hdecoded
    rcases List.mem_append.mp hentry with hold | hnew
    · exact h.journal entry hold decoded hdecoded
    · obtain rfl := List.mem_singleton.mp hnew
      rw [decodeEnvelope_encoded hpayload] at hdecoded
      cases hdecoded
      rfl
  · exact h.cached

theorem FiberKeyed.write (h : FiberKeyed S deriveFiberId keyFn s) (a : SessionAnswers)
    (detached : Bool) {payload : List UInt8} (hpayload : S.encodePayload event = .ok payload) :
    FiberKeyed S deriveFiberId keyFn
      (s.write a detached (deriveFiberId (keyFn event)) payload event).2 := by
  have hlanded := h.append_journal true detached hpayload
  unfold StoreInner.write accept
  cases a.write with
  | error failure => exact h
  | ok verdict =>
    cases verdict with
    | undetermined carriedEpoch applied =>
      cases applied with
      | true => exact ⟨hlanded.journal, h.cached⟩
      | false => exact ⟨h.journal, h.cached⟩
    | landed =>
      simp only [settle]
      cases a.sync with
      | error failure => exact ⟨hlanded.journal, h.cached⟩
      | ok u =>
        simp only
        split
        · exact ⟨hlanded.journal, h.cached⟩
        · refine ⟨hlanded.journal, ?_⟩
          intro entry hentry
          rcases List.mem_append.mp hentry with hold | hnew
          · exact h.cached entry hold
          · obtain rfl := List.mem_singleton.mp hnew
            rfl

theorem FiberKeyed.record (h : FiberKeyed S deriveFiberId keyFn s) (a : SessionAnswers)
    (event : E) :
    FiberKeyed S deriveFiberId keyFn (s.record S deriveFiberId a (keyFn event) event).2 := by
  unfold StoreInner.record
  cases hp : prepare S a s event with
  | error e => exact h
  | ok p => exact h.write a false (prepare_ok hp).2.1

theorem FiberKeyed.detach (h : FiberKeyed S deriveFiberId keyFn s) (a : SessionAnswers)
    (event : E) :
    FiberKeyed S deriveFiberId keyFn (s.detach S deriveFiberId a (keyFn event) event).2 := by
  unfold StoreInner.detach
  cases hp : prepare S a s event with
  | error e => exact h
  | ok p =>
    have hw := h.write a true (prepare_ok hp).2.1
    obtain ⟨payload, status⟩ := p
    by_cases hactive : status = .active
    · simp only [if_pos hactive]
      generalize s.write a true (deriveFiberId (keyFn event)) payload event = w at hw ⊢
      obtain ⟨r, s'⟩ := w
      cases r <;> exact hw
    · simp only [if_neg hactive]
      exact h

theorem keyed_of_mapM {entries : List JournalEntry} {cached : CachedEvents E}
    (hkeyed : ∀ entry ∈ entries, ∀ decoded,
      decodeEnvelope S entry.envelope = .ok decoded → KeyedEntry deriveFiberId keyFn decoded)
    (hcached : (entries.mapM fun entry => decodeEnvelope S entry.envelope) = .ok cached) :
    ∀ entry ∈ cached, KeyedEntry deriveFiberId keyFn entry := by
  induction entries generalizing cached with
  | nil =>
    cases hcached
    simp
  | cons entry entries ih =>
    rw [List.mapM_cons] at hcached
    obtain ⟨decoded, hdecoded, hrest⟩ := Except.bind_eq_ok_iff.mp hcached
    obtain ⟨rest, htail, hcons⟩ := Except.bind_eq_ok_iff.mp hrest
    cases hcons
    intro d hd
    rcases List.mem_cons.mp hd with rfl | hd
    · exact hkeyed entry (List.mem_cons_self ..) d hdecoded
    · exact ih (fun e he => hkeyed e (List.mem_cons_of_mem _ he)) htail d hd

theorem FiberKeyed.resync (h : FiberKeyed S deriveFiberId keyFn s) (read : Except StoreError Unit) :
    FiberKeyed S deriveFiberId keyFn (s.resyncFromAuthoritative S read).2 := by
  unfold StoreInner.resyncFromAuthoritative
  cases hm : s.journal.mapM fun entry => decodeEnvelope S entry.envelope with
  | error e =>
    cases s.lockKnowledge <;> cases read <;> exact h
  | ok cached =>
    cases s.lockKnowledge with
    | error e => exact h
    | ok u =>
      cases read with
      | error e => exact h
      | ok u' =>
        simp only
        split
        · exact h
        · exact ⟨h.journal, keyed_of_mapM h.journal hm⟩

theorem FiberKeyed.create : FiberKeyed S deriveFiberId keyFn StoreInner.create := by
  constructor <;> simp [StoreInner.create]

/-- A handle opened on the envelopes of a keyed journal. -/
theorem FiberKeyed.openStore (h : FiberKeyed S deriveFiberId keyFn s) {s' : StoreInner E}
    (hopen : StoreInner.openStore S (s.journal.map (·.envelope)) = .ok s') :
    FiberKeyed S deriveFiberId keyFn s' := by
  unfold StoreInner.openStore at hopen
  obtain ⟨cached, hcached, hs'⟩ := Except.bind_eq_ok_iff.mp hopen
  rw [Except.mapError_eq_ok_iff, List.mapM_map] at hcached
  cases hs'
  refine ⟨?_, keyed_of_mapM h.journal hcached⟩
  intro entry hentry decoded hdecoded
  obtain ⟨envelope, henvelope, rfl⟩ := List.mem_map.mp hentry
  obtain ⟨old, hold, rfl⟩ := List.mem_map.mp henvelope
  exact h.journal old hold decoded hdecoded

end Handles

end GhReport.Store
