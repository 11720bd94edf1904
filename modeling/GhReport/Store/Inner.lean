import GhReport.Event.RoundTrip

/-! # The native store handle

One handle over a journal of envelopes. A write asks the session for its fiber,
appends, and syncs; what the handle knows about its last write decides whether it
may go on. The file and the NATS backend make the same calls in the same order,
so one body stands for both.
-/

namespace GhReport.Store

open ByteCodec Pardosa

/-! ## Errors -/

/-- The conditions of a failed operation that the store or its callers tell apart. -/
inductive FailureCondition where
  | transportUnavailable | storeAlreadyExists | concurrencyConflict | staleEpoch
  | other (name : String)
deriving DecidableEq

structure OperationFailure where
  condition : FailureCondition
  message : String
deriving DecidableEq

inductive StoreError where
  | alreadyExists (failure : OperationFailure)
  | infrastructure (message : String)
  | operation (failure : OperationFailure)
  | creationUnknown (failure : OperationFailure)
  | encode (error : EncodeError)
  | decode (error : DecodeError)
  | indeterminate (carriedEpoch : UInt64)
  | afterLanded (error : StoreError)
  | landedNeedsReconciliation
  | concurrencyConflict (expectedSeq actualSeq : Option UInt64) (source : OperationFailure)
  | tornWriteRecovery (source : String)
  | divergedFiber (key : String)
  | poisoned
deriving DecidableEq

def StoreError.ofFailure (failure : OperationFailure) : StoreError :=
  match failure.condition with
  | .storeAlreadyExists => .alreadyExists failure
  | .concurrencyConflict | .staleEpoch => .concurrencyConflict none none failure
  | _ => .operation failure

/-! ## State -/

/-- A lock that a panic of its holder poisons. -/
structure Mutex (α : Type) where
  value : α
  poisoned : Bool

/-- What the handle knows about its last write. -/
inductive WriteKnowledge where
  | ready
  | unknown (carriedEpoch : UInt64)
  | landed
deriving DecidableEq

abbrev FiberId := BitVec 128

/-- The states of a fiber that a write asks for. -/
inductive FiberStatus where
  | undefined | active | detached
deriving DecidableEq

structure Envelope where
  detached : Bool
  fiberId : FiberId
  payload : List UInt8
deriving DecidableEq

/-- An envelope in the journal, and whether this handle wrote it. -/
structure JournalEntry where
  own : Bool
  envelope : Envelope
deriving DecidableEq

abbrev CachedEvents (E : Type) := List (Bool × FiberId × E)

/--
A store handle with the journal behind it. The cut `loadedAt` is the journal's length when the
cache was last read from it; the source keeps no such number.
-/
structure StoreInner (E : Type) where
  journal : List JournalEntry
  loadedAt : ℕ
  cached : Mutex (CachedEvents E)
  knowledge : Mutex WriteKnowledge

/-- A durable event type: its codec, and the round trip of that codec. -/
structure Schema (E : Type) where
  codec : EventCodec E
  lawful : codec.Lawful

variable {E : Type}

def Schema.encodePayload (S : Schema E) (event : E) : Except EncodeError (List UInt8) :=
  S.codec.encode event []

def Schema.decodePayload (S : Schema E) (buf : List UInt8) : Except DecodeError E :=
  (S.codec.decode buf).map Prod.fst

theorem Schema.decodePayload_of_encodePayload (S : Schema E) {event : E} {payload : List UInt8}
    (h : S.encodePayload event = .ok payload) : S.decodePayload payload = .ok event := by
  obtain ⟨b, hw, hr⟩ := S.lawful.round_trip event []
  unfold encodePayload at h
  have hb : payload = b := by
    rw [hw] at h
    exact (Except.ok.inj h).symm
  rw [List.append_nil] at hr
  rw [hb, decodePayload, hr]
  rfl

/-! ## Answers of a session -/

/-- How a write ended: it landed, or the session cannot tell; then it may have been applied. -/
inductive WriteAnswer where
  | landed
  | undetermined (carriedEpoch : UInt64) (applied : Bool)
deriving DecidableEq

/-- What the backend answers to the calls of one write, in the order they are made. -/
structure SessionAnswers where
  currentEpoch : Except OperationFailure UInt64
  openWrite : Except OperationFailure Unit
  fiber : Except OperationFailure FiberStatus
  write : Except OperationFailure WriteAnswer
  sync : Except OperationFailure Unit

/-- A call of the adapter or the session, its failure turned into a store error. -/
def adapted {α : Type} (answer : Except OperationFailure α) : Except StoreError α :=
  answer.mapError StoreError.ofFailure

/-! ## Operations -/

namespace StoreInner

def check : WriteKnowledge → Except StoreError Unit
  | .ready => .ok ()
  | .unknown carriedEpoch => .error (.indeterminate carriedEpoch)
  | .landed => .error .landedNeedsReconciliation

def lockKnowledge (s : StoreInner E) : Except StoreError Unit :=
  if s.knowledge.poisoned then .error .poisoned else check s.knowledge.value

def lockCached (s : StoreInner E) : Except StoreError (CachedEvents E) := do
  s.lockKnowledge
  if s.cached.poisoned then .error .poisoned else .ok s.cached.value

/-- The part of a write before the append: epoch, session and the state of the fiber. -/
def openSession (a : SessionAnswers) : Except StoreError FiberStatus := do
  let _epoch ← adapted a.currentEpoch
  adapted a.openWrite
  adapted a.fiber

/-- Append an envelope and take over the session's verdict. -/
def accept (a : SessionAnswers) (s : StoreInner E) (envelope : Envelope) :
    Except StoreError Unit × StoreInner E :=
  match a.write with
  | .error failure => (.error (.ofFailure failure), s)
  | .ok .landed =>
    (.ok (), { s with
      journal := s.journal ++ [⟨true, envelope⟩]
      knowledge := { s.knowledge with value := .landed } })
  | .ok (.undetermined carriedEpoch applied) =>
    (.error (.indeterminate carriedEpoch), { s with
      journal := if applied then s.journal ++ [⟨true, envelope⟩] else s.journal
      knowledge := { s.knowledge with value := .unknown carriedEpoch } })

/-- Sync, then push to the cache and be ready again. -/
def settle (a : SessionAnswers) (s : StoreInner E) (entry : Bool × FiberId × E) :
    Except StoreError Unit × StoreInner E :=
  match a.sync with
  | .error failure => (.error (.afterLanded (.ofFailure failure)), s)
  | .ok () =>
    if s.cached.poisoned then (.error (.afterLanded .poisoned), s)
    else (.ok (), { s with
      cached := { s.cached with value := s.cached.value ++ [entry] }
      knowledge := { s.knowledge with value := .ready } })

/-- The append of an event in its envelope and all that follows it. -/
def write (a : SessionAnswers) (s : StoreInner E) (detached : Bool) (fiberId : FiberId)
    (payload : List UInt8) (event : E) : Except StoreError Unit × StoreInner E :=
  match accept a s ⟨detached, fiberId, payload⟩ with
  | (.error e, s) => (.error e, s)
  | (.ok (), s) => settle a s (detached, fiberId, event)

section Calls

variable (S : Schema E) (deriveFiberId : String → FiberId)

/-- The lock, the payload and the session that a write needs before it appends. -/
def prepare (a : SessionAnswers) (s : StoreInner E) (event : E) :
    Except StoreError (List UInt8 × FiberStatus) := do
  s.lockKnowledge
  let payload ← (S.encodePayload event).mapError StoreError.encode
  let status ← openSession a
  .ok (payload, status)

/-- Record an event on the fiber of a key, rescuing the fiber if it is detached. -/
def record (a : SessionAnswers) (s : StoreInner E) (domainKey : String) (event : E) :
    Except StoreError Unit × StoreInner E :=
  match prepare S a s event with
  | .error e => (.error e, s)
  | .ok (payload, _) => write a s false (deriveFiberId domainKey) payload event

/-- Detach the fiber of a key if it is active; the result says whether anything was written. -/
def detach (a : SessionAnswers) (s : StoreInner E) (domainKey : String) (event : E) :
    Except StoreError Bool × StoreInner E :=
  match prepare S a s event with
  | .error e => (.error e, s)
  | .ok (payload, status) =>
    if status = .active then
      match write a s true (deriveFiberId domainKey) payload event with
      | (.error e, s) => (.error e, s)
      | (.ok (), s) => (.ok true, s)
    else (.ok false, s)

def events (s : StoreInner E) : Except StoreError (List (Bool × E)) := do
  let cached ← s.lockCached
  .ok (cached.map fun entry => (entry.1, entry.2.2))

def foldEvents {R : Type} (s : StoreInner E) (init : R) (fold : R → Bool → E → R) :
    Except StoreError R := do
  let cached ← s.lockCached
  .ok (cached.foldl (fun acc entry => fold acc entry.1 entry.2.2) init)

/-- Detached events are skipped. -/
def foldDefinedEvents {R : Type} (s : StoreInner E) (init : R) (fold : R → E → R) :
    Except StoreError R := do
  let cached ← s.lockCached
  .ok (cached.foldl (fun acc entry => if !entry.1 then fold acc entry.2.2 else acc) init)

def decodeEnvelope (envelope : Envelope) : Except DecodeError (Bool × FiberId × E) := do
  let event ← S.decodePayload envelope.payload
  .ok (envelope.detached, envelope.fiberId, event)

/-- Read the journal again; `read` answers for opening it and checking its schema. -/
def resyncFromAuthoritative (read : Except StoreError Unit) (s : StoreInner E) :
    Except StoreError Unit × StoreInner E :=
  match s.lockKnowledge, read, s.journal.mapM fun entry => decodeEnvelope S entry.envelope with
  | .error e, _, _ => (.error e, s)
  | .ok (), .error e, _ => (.error e, s)
  | .ok (), .ok (), .error e => (.error (.decode e), s)
  | .ok (), .ok (), .ok cached =>
    if s.cached.poisoned then (.error .poisoned, s)
    else (.ok (), { s with
      cached := { s.cached with value := cached }
      loadedAt := s.journal.length })

def preflightWriteLease (a : SessionAnswers) (s : StoreInner E) : Except StoreError Unit := do
  s.lockKnowledge
  let _epoch ← adapted a.currentEpoch
  adapted a.openWrite

/-- A handle over a journal created empty. -/
def create : StoreInner E where
  journal := []
  loadedAt := 0
  cached := ⟨[], false⟩
  knowledge := ⟨.ready, false⟩

/-- A handle over a journal that exists, its envelopes decoded into the cache. -/
def openStore (journal : List Envelope) : Except StoreError (StoreInner E) := do
  let cached ← (journal.mapM (decodeEnvelope S)).mapError StoreError.decode
  .ok {
    journal := journal.map fun envelope => ⟨false, envelope⟩
    loadedAt := journal.length
    cached := ⟨cached, false⟩
    knowledge := ⟨.ready, false⟩ }

end Calls

/-! ## What a write does -/

/--
The exits of a write: refused before anything was appended, undetermined, landed but not
settled, or done.
-/
inductive Wrote (S : Schema E) (detached : Bool) (fiberId : FiberId) (event : E)
    (s : StoreInner E) : Except StoreError Unit → StoreInner E → Prop where
  | refused (e : StoreError) : Wrote S detached fiberId event s (.error e) s
  | undetermined (carriedEpoch : UInt64) (applied : Bool) (payload : List UInt8) :
      Wrote S detached fiberId event s (.error (.indeterminate carriedEpoch))
        { s with
          journal :=
            if applied then s.journal ++ [⟨true, detached, fiberId, payload⟩] else s.journal
          knowledge := { s.knowledge with value := .unknown carriedEpoch } }
  | unsettled (e : StoreError) (payload : List UInt8) :
      Wrote S detached fiberId event s (.error (.afterLanded e))
        { s with
          journal := s.journal ++ [⟨true, detached, fiberId, payload⟩]
          knowledge := { s.knowledge with value := .landed } }
  | done (payload : List UInt8) (hready : s.lockKnowledge = .ok ())
      (hpayload : S.encodePayload event = .ok payload) :
      Wrote S detached fiberId event s (.ok ())
        { s with
          journal := s.journal ++ [⟨true, detached, fiberId, payload⟩]
          cached := { s.cached with value := s.cached.value ++ [(detached, fiberId, event)] }
          knowledge := { s.knowledge with value := .ready } }

variable {S : Schema E} {deriveFiberId : String → FiberId} {a : SessionAnswers}

theorem prepare_ok {s : StoreInner E} {event : E} {payload : List UInt8} {status : FiberStatus}
    (h : prepare S a s event = .ok (payload, status)) :
    s.lockKnowledge = .ok () ∧ S.encodePayload event = .ok payload ∧
      openSession a = .ok status := by
  unfold prepare at h
  cases hk : s.lockKnowledge with
  | error e => rw [hk] at h; cases h
  | ok u =>
    cases hp : S.encodePayload event with
    | error e => rw [hk, hp] at h; cases h
    | ok p =>
      cases ho : openSession a with
      | error e => rw [hk, hp, ho] at h; cases h
      | ok st =>
        rw [hk, hp, ho] at h
        cases h
        exact ⟨rfl, rfl, rfl⟩

theorem write_wrote {s : StoreInner E} {detached : Bool} {fiberId : FiberId}
    {payload : List UInt8} {event : E} (hready : s.lockKnowledge = .ok ())
    (hpayload : S.encodePayload event = .ok payload) :
    Wrote S detached fiberId event s (write a s detached fiberId payload event).1
      (write a s detached fiberId payload event).2 := by
  unfold write accept
  cases a.write with
  | error failure => exact .refused _
  | ok verdict =>
    cases verdict with
    | undetermined carriedEpoch applied => exact .undetermined _ _ _
    | landed =>
      simp only [settle]
      cases a.sync with
      | error failure => exact .unsettled _ _
      | ok u =>
        simp only
        split
        · exact .unsettled _ _
        · exact .done _ hready hpayload

variable (S deriveFiberId a) in
theorem record_wrote (s : StoreInner E) (domainKey : String) (event : E) :
    Wrote S false (deriveFiberId domainKey) event s
      (record S deriveFiberId a s domainKey event).1
      (record S deriveFiberId a s domainKey event).2 := by
  unfold record
  cases h : prepare S a s event with
  | error e => exact .refused _
  | ok p =>
    obtain ⟨hready, hpayload, _⟩ := prepare_ok h
    exact write_wrote hready hpayload

theorem fiber_of_openSession {status : FiberStatus} (h : openSession a = .ok status) :
    a.fiber = .ok status := by
  unfold openSession adapted at h
  cases he : a.currentEpoch with
  | error e => rw [he] at h; cases h
  | ok epoch =>
    cases ho : a.openWrite with
    | error e => rw [he, ho] at h; cases h
    | ok u =>
      cases hf : a.fiber with
      | error e => rw [he, ho, hf] at h; cases h
      | ok st =>
        rw [he, ho, hf] at h
        cases h
        rfl

variable (S deriveFiberId a) in
/--
A detach of a fiber that is not active writes nothing and says so; otherwise it is a write that
reports it landed.
-/
theorem detach_wrote (s : StoreInner E) (domainKey : String) (event : E) :
    (∃ status, a.fiber = .ok status ∧ status ≠ .active ∧
        detach S deriveFiberId a s domainKey event = (.ok false, s)) ∨
      ∃ r, (detach S deriveFiberId a s domainKey event).1 = r.map (fun _ => true) ∧
        Wrote S true (deriveFiberId domainKey) event s r
          (detach S deriveFiberId a s domainKey event).2 ∧
        (r = .ok () → a.fiber = .ok .active) := by
  unfold detach
  cases h : prepare S a s event with
  | error e => exact .inr ⟨.error e, rfl, .refused _, fun hr => by cases hr⟩
  | ok p =>
    obtain ⟨payload, status⟩ := p
    obtain ⟨hready, hpayload, hopen⟩ := prepare_ok h
    have hfiber : a.fiber = .ok status := fiber_of_openSession hopen
    by_cases hactive : status = .active
    · right
      have hw : Wrote S true (deriveFiberId domainKey) event s
          (write a s true (deriveFiberId domainKey) payload event).1
          (write a s true (deriveFiberId domainKey) payload event).2 :=
        write_wrote hready hpayload
      simp only [hactive, if_true]
      generalize write a s true (deriveFiberId domainKey) payload event = w at hw ⊢
      obtain ⟨r, s'⟩ := w
      cases r with
      | error e => exact ⟨.error e, rfl, hw, fun hr => by cases hr⟩
      | ok u => exact ⟨.ok u, rfl, hw, fun _ => by rw [hfiber, hactive]⟩
    · left
      exact ⟨status, hfiber, hactive, by simp [hactive]⟩

end StoreInner

end GhReport.Store
