import GhReport.Library.Effect
import GhReport.Library.History
import Mathlib.Data.List.Range
import Mathlib.Algebra.Group.Nat.Defs
import Mathlib.Algebra.GroupWithZero.Nat

/-! # The ephemeral event store

Streams of events in the memory of the process. An append names the sequence that
it expects the stream to end with, and conflicts with any other. Each operation
holds the lock from its first reading to its last write.
-/

namespace GhReport.App

/-! ## Envelopes -/

structure CorrelationContext where
  correlationId : Option String
  causationId : Option String

/-- An event as it is stored; sequences count from one. -/
structure EventEnvelope (ε : Type) where
  eventId : String
  aggregateId : ℕ
  sequence : ℕ
  timestamp : String
  correlationId : Option String
  causationId : Option String
  payload : ε

inductive EphemeralError where
  | infrastructure (reason : String)
  | concurrencyConflict (aggregateId expectedSequence actualSequence : ℕ)
  | corruptData (reason : String)
deriving DecidableEq

/-- What the event library checks of an envelope that is built, and of a stream that is loaded. -/
structure EnvelopeChecks (ε : Type) where
  new : EventEnvelope ε → Except String Unit
  validateStream : ℕ → List (EventEnvelope ε) → Except String Unit

/-- The clock and the supply of identifiers that a write reads. -/
structure WriteEnvironment where
  now : String
  uuid : ℕ → String

section Build

variable {ε : Type} (C : EnvelopeChecks ε) (env : WriteEnvironment) (context : CorrelationContext)
variable (id startSequence : ℕ)

def buildEnvelope (i : ℕ) (payload : ε) : Except EphemeralError (EventEnvelope ε) := do
  let raw := startSequence + i + 1
  if 2 ^ 64 ≤ raw then .error (.infrastructure "sequence overflow")
  else
    let envelope : EventEnvelope ε :=
      ⟨env.uuid i, id, raw, env.now, context.correlationId, context.causationId, payload⟩
    (C.new envelope).mapError .infrastructure
    .ok envelope

/-- The envelopes of the events from the `i`-th on. -/
def buildEnvelopes : ℕ → List ε → Except EphemeralError (List (EventEnvelope ε))
  | _, [] => .ok []
  | i, payload :: events => do
    let envelope ← buildEnvelope C env context id startSequence i payload
    let envelopes ← buildEnvelopes (i + 1) events
    .ok (envelope :: envelopes)

end Build

/-! ## The store -/

structure EphemeralStore (ε : Type) where
  streams : ℕ → Option (List (EventEnvelope ε))
  nextId : ℕ

/-- An operation on the store. -/
inductive StreamOp (ε : Type) where
  | load (id : ℕ)
  | create (events : List ε) (context : CorrelationContext) (env : WriteEnvironment)
  | append (id expectedSequence : ℕ) (events : List ε) (context : CorrelationContext)
      (env : WriteEnvironment)

/-- An operation with its answer. -/
inductive StreamCall (ε : Type) where
  | loaded (id : ℕ) (answer : Except EphemeralError (List (EventEnvelope ε)))
  | created (events : List ε) (answer : Except EphemeralError (ℕ × List (EventEnvelope ε)))
  | appended (id expectedSequence : ℕ) (events : List ε)
      (answer : Except EphemeralError (List (EventEnvelope ε)))

namespace EphemeralStore

variable {ε : Type}

def new : EphemeralStore ε := ⟨fun _ => none, 1⟩

variable (C : EnvelopeChecks ε) (s : EphemeralStore ε)

/-- The stream of an aggregate; of one that was not created there is none. -/
def stream (id : ℕ) : List (EventEnvelope ε) := (s.streams id).getD []

def setStream (id : ℕ) (stream : List (EventEnvelope ε)) : EphemeralStore ε :=
  { s with streams := Function.update s.streams id (some stream) }

def load (id : ℕ) : Except EphemeralError (List (EventEnvelope ε)) := do
  (C.validateStream id (s.stream id)).mapError .corruptData
  .ok (s.stream id)

/-- The identifier is taken before the envelopes are built, and is not given back. -/
def create (events : List ε) (context : CorrelationContext) (env : WriteEnvironment) :
    Except EphemeralError (ℕ × List (EventEnvelope ε)) × EphemeralStore ε :=
  if events.isEmpty then
    (.error (.infrastructure "cannot create aggregate with zero events"), s)
  else if 2 ^ 64 ≤ s.nextId + 1 then (.error (.infrastructure "aggregate ID overflow"), s)
  else
    let id := s.nextId
    let s := { s with nextId := s.nextId + 1 }
    match buildEnvelopes C env context id 0 0 events with
    | .error e => (.error e, s)
    | .ok envelopes => (.ok (id, envelopes), s.setStream id envelopes)

def append (id expectedSequence : ℕ) (events : List ε) (context : CorrelationContext)
    (env : WriteEnvironment) : Except EphemeralError (List (EventEnvelope ε)) × EphemeralStore ε :=
  if events.isEmpty then (.ok [], s)
  else
    match s.streams id with
    | none =>
      (.error (.infrastructure ("cannot append to aggregate " ++ toString id
        ++ ": not created (use create() first)")), s)
    | some stream =>
      let actualSequence := (stream.getLast?.map (·.sequence)).getD 0
      if actualSequence ≠ expectedSequence then
        (.error (.concurrencyConflict id expectedSequence actualSequence), s)
      else
        match buildEnvelopes C env context id expectedSequence 0 events with
        | .error e => (.error e, s)
        | .ok envelopes => (.ok envelopes, s.setStream id (stream ++ envelopes))

end EphemeralStore

def ephemeralStore {ε : Type} (C : EnvelopeChecks ε) :
    Machine (EphemeralStore ε) (StreamOp ε) (List (StreamCall ε)) where
  step s op :=
    match op with
    | .load id => ([.loaded id (s.load C id)], s)
    | .create events context env =>
      ([.created events (s.create C events context env).1], (s.create C events context env).2)
    | .append id expectedSequence events context env =>
      ([.appended id expectedSequence events (s.append C id expectedSequence events context env).1],
        (s.append C id expectedSequence events context env).2)

/-! ## The log -/

section Log

variable {ε : Type}

/-- The events that a call wrote to an aggregate. -/
def StreamCall.written (id : ℕ) : StreamCall ε → List ε
  | created events (.ok (id', _)) => if id' = id then events else []
  | appended id' _ events (.ok _) => if id' = id then events else []
  | _ => []

/-- All that the calls wrote to an aggregate, in their order. -/
def writtenTo (id : ℕ) (calls : List (StreamCall ε)) : List ε := calls.flatMap (·.written id)

/-- Envelopes of events of an aggregate, numbered from after a sequence on. -/
structure Numbered (id start : ℕ) (events : List ε) (envelopes : List (EventEnvelope ε)) :
    Prop where
  payloads : envelopes.map (·.payload) = events
  sequences : envelopes.map (·.sequence) = List.range' (start + 1) events.length
  aggregate : ∀ envelope ∈ envelopes, envelope.aggregateId = id

/-- The aggregate that a call created. -/
def StreamCall.createdId : StreamCall ε → Option ℕ
  | created _ (.ok (id, _)) => some id
  | _ => none

/--
Each answer is what the log of the calls before it says. A load reads the whole log; a creation
takes an identifier above all others; an append goes where the log ends and conflicts elsewhere.
-/
def Answers (before : List (StreamCall ε)) : StreamCall ε → Prop
  | .loaded id (.ok envelopes) => Numbered id 0 (writtenTo id before) envelopes
  | .created events (.ok (id, envelopes)) =>
    events ≠ [] ∧ Numbered id 0 events envelopes ∧ writtenTo id before = [] ∧
      ∀ call ∈ before, ∀ id' ∈ call.createdId, id' < id
  | .appended id expectedSequence events (.ok envelopes) =>
    Numbered id expectedSequence events envelopes ∧
      (events ≠ [] → writtenTo id before ≠ [] ∧ expectedSequence = (writtenTo id before).length)
  | .appended id expectedSequence _ (.error (.concurrencyConflict id' expected actual)) =>
    id' = id ∧ expected = expectedSequence ∧ actual = (writtenTo id before).length ∧
      actual ≠ expectedSequence
  | _ => True

@[simp] theorem writtenTo_concat (id : ℕ) (calls : List (StreamCall ε)) (call : StreamCall ε) :
    writtenTo id (calls ++ [call]) = writtenTo id calls ++ call.written id := by
  simp [writtenTo]

theorem Numbered.nil (id start : ℕ) : Numbered id start ([] : List ε) [] :=
  ⟨rfl, rfl, fun _ h => absurd h List.not_mem_nil⟩

theorem Numbered.append {id start : ℕ} {events events' : List ε}
    {envelopes envelopes' : List (EventEnvelope ε)} (h : Numbered id start events envelopes)
    (h' : Numbered id (start + events.length) events' envelopes') :
    Numbered id start (events ++ events') (envelopes ++ envelopes') where
  payloads := by rw [List.map_append, h.payloads, h'.payloads]
  sequences := by
    rw [List.map_append, h.sequences, h'.sequences, List.length_append, Nat.add_right_comm,
      List.range'_append_1]
  aggregate envelope hm := (List.mem_append.mp hm).elim (h.aggregate _) (h'.aggregate _)

/-- The last sequence of a stream is its length. -/
theorem Numbered.last {id : ℕ} {events : List ε} {envelopes : List (EventEnvelope ε)}
    (h : Numbered id 0 events envelopes) :
    (envelopes.getLast?.map (·.sequence)).getD 0 = events.length := by
  rw [← List.getLast?_map, h.sequences, List.getLast?_range']
  cases events with
  | nil => rfl
  | cons => simp

end Log

/-! ## Building -/

section Build

variable {ε : Type} {C : EnvelopeChecks ε} {env : WriteEnvironment} {context : CorrelationContext}
variable {id startSequence : ℕ}

theorem buildEnvelope_ok {i : ℕ} {payload : ε} {envelope : EventEnvelope ε}
    (h : buildEnvelope C env context id startSequence i payload = .ok envelope) :
    envelope.payload = payload ∧ envelope.sequence = startSequence + i + 1 ∧
      envelope.aggregateId = id := by
  simp only [buildEnvelope] at h
  split at h
  · cases h
  · obtain ⟨-, -, h⟩ := Except.bind_eq_ok_iff.mp h
    cases h
    exact ⟨rfl, rfl, rfl⟩

theorem buildEnvelopes_ok {i : ℕ} {events : List ε} {envelopes : List (EventEnvelope ε)}
    (h : buildEnvelopes C env context id startSequence i events = .ok envelopes) :
    Numbered id (startSequence + i) events envelopes := by
  induction events generalizing i envelopes with
  | nil =>
    cases h
    exact .nil ..
  | cons payload events ih =>
    obtain ⟨envelope, he, h⟩ := Except.bind_eq_ok_iff.mp h
    obtain ⟨rest, hrest, h⟩ := Except.bind_eq_ok_iff.mp h
    cases h
    obtain ⟨hp, hs, ha⟩ := buildEnvelope_ok he
    have hfirst : Numbered id (startSequence + i) [payload] [envelope] :=
      ⟨by simp [hp], by simp [hs], by simpa using ha⟩
    exact hfirst.append (ih hrest)

theorem buildEnvelope_error {i : ℕ} {payload : ε} {e : EphemeralError}
    (h : buildEnvelope C env context id startSequence i payload = .error e) :
    ∃ reason, e = .infrastructure reason := by
  simp only [buildEnvelope] at h
  split at h
  · cases h
    exact ⟨_, rfl⟩
  · cases hn : C.new _ with
    | ok => rw [hn] at h; cases h
    | error reason =>
      rw [hn] at h
      cases h
      exact ⟨reason, rfl⟩

theorem buildEnvelopes_error {i : ℕ} {events : List ε} {e : EphemeralError}
    (h : buildEnvelopes C env context id startSequence i events = .error e) :
    ∃ reason, e = .infrastructure reason := by
  induction events generalizing i with
  | nil => cases h
  | cons payload events ih =>
    rw [buildEnvelopes] at h
    cases he : buildEnvelope C env context id startSequence i payload with
    | error e' =>
      rw [he] at h
      cases h
      exact buildEnvelope_error he
    | ok envelope =>
      rw [he] at h
      cases hr : buildEnvelopes C env context id startSequence (i + 1) events with
      | error e' =>
        simp only [hr, bind, Except.bind] at h
        cases h
        exact ih hr
      | ok rest =>
        simp only [hr, bind, Except.bind] at h
        cases h

end Build

/-! ## Runs -/

/-- The store holds what the log says. -/
structure EphemeralStore.Holds {ε : Type} (before : List (StreamCall ε)) (s : EphemeralStore ε) :
    Prop where
  answers : History.Always Answers before
  streams : ∀ id, Numbered id 0 (writtenTo id before) (s.stream id)
  created : ∀ id, s.streams id = none ↔ writtenTo id before = []
  fresh : ∀ id, s.nextId ≤ id → s.streams id = none
  below : ∀ call ∈ before, ∀ id ∈ call.createdId, id < s.nextId

namespace EphemeralStore

variable {ε : Type} {C : EnvelopeChecks ε} {before : List (StreamCall ε)} {s : EphemeralStore ε}
variable {call : StreamCall ε} {id : ℕ} {events : List ε} {envelopes : List (EventEnvelope ε)}

theorem holds_new : (new : EphemeralStore ε).Holds [] where
  answers := .nil
  streams id := .nil id 0
  created _ := ⟨fun _ => rfl, fun _ => rfl⟩
  fresh _ _ := rfl
  below _ h := absurd h List.not_mem_nil

/-- A call that writes nothing leaves the streams, and at most takes an identifier. -/
theorem Holds.silent (h : s.Holds before) (ha : Answers before call)
    (hw : ∀ id, call.written id = []) (hc : call.createdId = none) {nextId : ℕ}
    (hn : s.nextId ≤ nextId) :
    ({ s with nextId := nextId } : EphemeralStore ε).Holds (before ++ [call]) where
  answers := (History.always_concat_iff call).mpr ⟨h.answers, ha⟩
  streams id := by
    rw [writtenTo_concat, hw, List.append_nil]
    exact h.streams id
  created id := by
    rw [writtenTo_concat, hw, List.append_nil]
    exact h.created id
  fresh id hid := h.fresh id (hn.trans hid)
  below call' hm id hid := by
    rcases List.mem_append.mp hm with hm | hm
    · exact (h.below call' hm id hid).trans_le hn
    · rw [List.mem_singleton.mp hm, hc] at hid
      cases hid

@[simp] theorem stream_setStream_self (stream : List (EventEnvelope ε)) :
    (s.setStream id stream).stream id = stream := by
  simp [setStream, EphemeralStore.stream]

theorem streams_setStream_ne {id' : ℕ} (h : id' ≠ id) (stream : List (EventEnvelope ε)) :
    (s.setStream id stream).streams id' = s.streams id' :=
  Function.update_of_ne h ..

/-- A call that writes to one aggregate lengthens its stream. -/
theorem Holds.write (h : s.Holds before) (ha : Answers before call) (he : events ≠ [])
    (hw : ∀ id', call.written id' = if id = id' then events else [])
    (hnum : Numbered id (writtenTo id before).length events envelopes) {nextId : ℕ}
    (hn : s.nextId ≤ nextId) (hid : id < nextId) (hc : ∀ id' ∈ call.createdId, id' < nextId) :
    ({ s with nextId := nextId }.setStream id (s.stream id ++ envelopes)).Holds
      (before ++ [call]) where
  answers := (History.always_concat_iff call).mpr ⟨h.answers, ha⟩
  streams id' := by
    rw [writtenTo_concat, hw]
    rcases eq_or_ne id' id with rfl | hne
    · rw [if_pos rfl, stream_setStream_self]
      exact (h.streams id').append (by rwa [Nat.zero_add])
    · rw [if_neg hne.symm, List.append_nil, EphemeralStore.stream, streams_setStream_ne hne]
      exact h.streams id'
  created id' := by
    rw [writtenTo_concat, hw]
    rcases eq_or_ne id' id with rfl | hne
    · simp [setStream, he]
    · rw [if_neg hne.symm, List.append_nil, streams_setStream_ne hne]
      exact h.created id'
  fresh id' hle := by
    have hne : id' ≠ id := (hid.trans_le hle).ne'
    rw [streams_setStream_ne hne]
    exact h.fresh id' (hn.trans hle)
  below call' hm id' hid' := by
    rcases List.mem_append.mp hm with hm | hm
    · exact (h.below call' hm id' hid').trans_le hn
    · rw [List.mem_singleton.mp hm] at hid'
      exact hc id' hid'

theorem Holds.load (h : s.Holds before) (id : ℕ) :
    s.Holds (before ++ [.loaded id (s.load C id)]) := by
  refine h.silent ?_ (fun _ => rfl) rfl le_rfl
  cases hl : s.load C id with
  | error e => trivial
  | ok envelopes =>
    obtain ⟨-, -, hl⟩ := Except.bind_eq_ok_iff.mp hl
    cases hl
    exact h.streams id

theorem Holds.create (h : s.Holds before) (events : List ε) (context : CorrelationContext)
    (env : WriteEnvironment) :
    (s.create C events context env).2.Holds
      (before ++ [.created events (s.create C events context env).1]) := by
  unfold EphemeralStore.create
  split
  · refine h.silent ?_ (fun _ => rfl) rfl le_rfl
    trivial
  · rename_i hempty
    have he : events ≠ [] := fun h => hempty (by rw [h]; rfl)
    split
    · refine h.silent ?_ (fun _ => rfl) rfl le_rfl
      trivial
    · dsimp only
      split
      · refine h.silent ?_ (fun _ => rfl) rfl (Nat.le_succ _)
        trivial
      · rename_i envelopes hb
        have hnone := h.fresh s.nextId le_rfl
        have hwritten : writtenTo s.nextId before = [] := (h.created _).mp hnone
        have hnum : Numbered s.nextId 0 events envelopes := buildEnvelopes_ok hb
        have hanswer : Answers before (.created events (.ok (s.nextId, envelopes))) :=
          ⟨he, hnum, hwritten, h.below⟩
        have hwrite := h.write hanswer he (fun _ => rfl) (by rwa [hwritten]) (Nat.le_succ _)
          (Nat.lt_succ_self _) (fun id' hid' => by cases hid'; exact Nat.lt_succ_self _)
        rwa [EphemeralStore.stream, hnone] at hwrite

theorem Holds.append (h : s.Holds before) (id expectedSequence : ℕ) (events : List ε)
    (context : CorrelationContext) (env : WriteEnvironment) :
    (s.append C id expectedSequence events context env).2.Holds
      (before ++ [.appended id expectedSequence events
        (s.append C id expectedSequence events context env).1]) := by
  unfold EphemeralStore.append
  split
  · rename_i hempty
    have he : events = [] := List.isEmpty_iff.mp hempty
    subst he
    refine h.silent ?_ (fun id' => ?_) rfl le_rfl
    · exact ⟨.nil .., fun hne => absurd rfl hne⟩
    · exact ite_self []
  · rename_i hempty
    have he : events ≠ [] := fun h => hempty (by rw [h]; rfl)
    split
    · refine h.silent ?_ (fun _ => rfl) rfl le_rfl
      trivial
    · rename_i stream hs
      have hstream : s.stream id = stream := by rw [EphemeralStore.stream, hs]; rfl
      have hlast : (stream.getLast?.map (·.sequence)).getD 0 = (writtenTo id before).length := by
        rw [← hstream]
        exact (h.streams id).last
      have hne : writtenTo id before ≠ [] := by
        rw [ne_eq, ← h.created id, hs]
        simp
      have hbelow : id < s.nextId := by
        by_contra hle
        rw [h.fresh id (Nat.le_of_not_lt hle)] at hs
        cases hs
      dsimp only
      rw [hlast]
      split
      · rename_i hconflict
        refine h.silent ?_ (fun _ => rfl) rfl le_rfl
        exact ⟨rfl, rfl, rfl, hconflict⟩
      · rename_i hexpected
        obtain rfl : (writtenTo id before).length = expectedSequence := not_not.mp hexpected
        split
        · rename_i e hb
          obtain ⟨reason, rfl⟩ := buildEnvelopes_error hb
          refine h.silent ?_ (fun _ => rfl) rfl le_rfl
          trivial
        · rename_i envelopes hb
          have hnum := buildEnvelopes_ok hb
          rw [← hstream]
          refine h.write ?_ he (fun _ => rfl) hnum le_rfl hbelow ?_
          · exact ⟨hnum, fun _ => ⟨hne, rfl⟩⟩
          · rintro _ ⟨⟩

end EphemeralStore

/--
Whatever the order of the operations, each answer is what the log of those before it says; an
append of no events writes nothing, wherever it expects the end.
-/
theorem ephemeralStore_answers {ε : Type} (C : EnvelopeChecks ε) (ops : List (StreamOp ε)) :
    History.Always Answers ((ephemeralStore C).history EphemeralStore.new ops) := by
  refine (Machine.history_invariant (I := EphemeralStore.Holds) ?_ EphemeralStore.holds_new
    ops).answers
  intro before s op h
  cases op with
  | load id => exact h.load id
  | create events context env => exact h.create events context env
  | append id expectedSequence events context env =>
    exact h.append id expectedSequence events context env

/-- Of the appends to an aggregate that expect one sequence, at most one writes. -/
theorem append_expected_lt {ε : Type} (C : EnvelopeChecks ε) (ops : List (StreamOp ε))
    {before mid later : List (StreamCall ε)} {id expected expected' : ℕ} {events events' : List ε}
    {envelopes envelopes' : List (EventEnvelope ε)} (he : events ≠ []) (he' : events' ≠ [])
    (h : (ephemeralStore C).history EphemeralStore.new ops =
      before ++ .appended id expected events (.ok envelopes) ::
        (mid ++ .appended id expected' events' (.ok envelopes') :: later)) :
    expected < expected' := by
  have hall := ephemeralStore_answers C ops
  rw [h] at hall
  have hfirst := hall.split.2 he
  rw [← List.cons_append, ← List.append_assoc] at hall
  have hsecond := hall.split.2 he'
  have hlength : 0 < events.length := List.length_pos_iff.mpr he
  rw [hfirst.2, hsecond.2]
  simp only [writtenTo, List.flatMap_append, List.flatMap_cons, StreamCall.written, if_true,
    List.length_append]
  omega

def exampleContext : CorrelationContext := ⟨some "run", none⟩

def exampleEnvelopeChecks : EnvelopeChecks String := ⟨fun _ => .ok (), fun _ _ => .ok ()⟩

/-- An aggregate with one event, then three appends; the second expects what the first did. -/
def exampleStreamOps : List (StreamOp String) :=
  [.create ["started"] exampleContext ⟨"t1", fun _ => "a"⟩,
    .append 1 1 ["swept"] exampleContext ⟨"t2", fun _ => "b"⟩,
    .append 1 1 ["late"] exampleContext ⟨"t3", fun _ => "c"⟩,
    .append 1 2 ["timed out"] exampleContext ⟨"t4", fun _ => "d"⟩]

def exampleEnvelope (eventId : String) (sequence : ℕ) (timestamp payload : String) :
    EventEnvelope String :=
  ⟨eventId, 1, sequence, timestamp, some "run", none, payload⟩

theorem append_expected_lt_example :
    (ephemeralStore exampleEnvelopeChecks).history EphemeralStore.new exampleStreamOps =
        [.created ["started"] (.ok (1, [exampleEnvelope "a" 1 "t1" "started"]))] ++
          .appended 1 1 ["swept"] (.ok [exampleEnvelope "b" 2 "t2" "swept"]) ::
            ([.appended 1 1 ["late"] (.error (.concurrencyConflict 1 1 2))] ++
              [.appended 1 2 ["timed out"] (.ok [exampleEnvelope "d" 3 "t4" "timed out"])]) ∧
      1 < 2 := by
  have h : (ephemeralStore exampleEnvelopeChecks).history EphemeralStore.new exampleStreamOps =
      [.created ["started"] (.ok (1, [exampleEnvelope "a" 1 "t1" "started"]))] ++
        .appended 1 1 ["swept"] (.ok [exampleEnvelope "b" 2 "t2" "swept"]) ::
          ([.appended 1 1 ["late"] (.error (.concurrencyConflict 1 1 2))] ++
            [.appended 1 2 ["timed out"] (.ok [exampleEnvelope "d" 3 "t4" "timed out"])]) := rfl
  exact ⟨h, append_expected_lt exampleEnvelopeChecks exampleStreamOps (by simp) (by simp) h⟩

end GhReport.App
