import GhReport.Delivery.Jobs
import GhReport.Webhook.Events

/-! # The webhook receiver

A delivery is checked, classified, entered into the replay cache and then acted on.
A removal is written over several attempts, and other deliveries come in between;
the caches may drop any of their entries at any time.
-/

namespace GhReport.Webhook

open Domain App
open Delivery (JobSource RunId Removal)
open Collector (bytes stripPrefix)

/-! ## Requests -/

inductive StatusCode where
  | ok
  | accepted
  | badRequest
  | unauthorized
  | notFound
  | internalServerError
  | badGateway
  | serviceUnavailable
deriving DecidableEq

def StatusCode.isSuccess : StatusCode → Bool
  | ok | accepted => true
  | _ => false

def StatusCode.isServerError : StatusCode → Bool
  | internalServerError | badGateway | serviceUnavailable => true
  | _ => false

/-- The headers that are read, where they are present and are text, and the body. -/
structure Request where
  signature : Option String
  eventType : Option String
  deliveryId : Option String
  body : List UInt8

/-- What the handler is given from outside: the deserialisers, and the keyed hash. -/
structure Outside where
  decoder : Decoder
  hmac : List UInt8 → List UInt8 → List UInt8

def hexValue (c : Char) : Option UInt8 :=
  if '0' ≤ c ∧ c ≤ '9' then some (c.toNat - '0'.toNat).toUInt8
  else if 'a' ≤ c ∧ c ≤ 'f' then some (c.toNat - 'a'.toNat + 10).toUInt8
  else if 'A' ≤ c ∧ c ≤ 'F' then some (c.toNat - 'A'.toNat + 10).toUInt8
  else none

/-- Two digits, or a plus sign and one digit. -/
def hexPair (high low : Char) : Option UInt8 :=
  if high = '+' then hexValue low
  else do
    let h ← hexValue high
    let l ← hexValue low
    pure (h * 16 + l)

def hexDecodeChars : List Char → Option (List UInt8)
  | [] => some []
  | [_] => none
  | high :: low :: rest => do
    let byte ← hexPair high low
    let decoded ← hexDecodeChars rest
    pure (byte :: decoded)

def hexDecode (text : String) : Option (List UInt8) := hexDecodeChars text.toList

def verifySignature (O : Outside) (secret : String) (body : List UInt8) (signatureHeader : String) :
    Bool :=
  match stripPrefix "sha256=" signatureHeader with
  | none => false
  | some hex =>
    match hexDecode hex with
    | none => false
    | some expected => O.hmac (bytes secret) body == expected

/-! ## State -/

/-- Times are nanoseconds of the monotonic clock. -/
structure WebhookState where
  secret : Option String
  replayCache : List String
  debounceCache : Std.ExtTreeMap String ℕ compare

/-- A delivery whose removal is between two attempts at its write. -/
structure Removing extends Removal where
  deliveryId : String

structure JobContext where
  repo : Repository
  runTimestamp : String

structure JobSpec where
  domainKey : String
  context : JobContext
  source : JobSource
  correlation : Option RunId

inductive EnqueueResult where
  | accepted
  | deduplicated
  | queueFull
deriving DecidableEq

/-- What was done for a delivery; `taken` is a job that the queue took or held already. -/
inductive Deed where
  | absent (deliveryId inventoryKey : String)
  | removed (deliveryId inventoryKey : String)
  | taken (job : JobSpec) (time : ℕ)
  | debounced (deliveryId inventoryKey : String) (time : ℕ)

/-- The process; `deeds` is a history that no step reads. -/
structure Receiver where
  app : AppState
  webhook : WebhookState
  removing : List Removing
  clock : ℕ
  deeds : List Deed

/-- How a handler ended: its status, and the classified action if it came so far. -/
structure Answer where
  deliveryId : String
  eventType : String
  action : Option WebhookAction
  status : StatusCode
deriving DecidableEq

def debounceSecs : ℕ := 5

/-- A push at one time falls inside the window of a push at another. -/
def withinDebounce (now last : ℕ) : Bool := (now - last) / 10 ^ 9 < debounceSecs

namespace Receiver

variable (d : Receiver)

/-! ## The handler -/

def validateRequest (O : Outside) (request : Request) : Except StatusCode (String × String) :=
  match d.webhook.secret, request.signature with
  | none, _ => .error .notFound
  | some _, none => .error .unauthorized
  | some secret, some signature =>
    if !verifySignature O secret request.body signature then .error .unauthorized
    else
      match request.eventType, request.deliveryId with
      | some eventType, some deliveryId => .ok (eventType, deliveryId)
      | _, _ => .error .badRequest

def enter (deliveryId : String) : Receiver :=
  { d with webhook := { d.webhook with replayCache := deliveryId :: d.webhook.replayCache } }

/-- Whether the delivery is fresh; then it is entered. -/
def acceptWebhookDelivery (deliveryId : String) : Bool × Receiver :=
  if deliveryId ∈ d.webhook.replayCache then (false, d) else (true, d.enter deliveryId)

/-- Whether a push of the repository was let through within the window. -/
def debounces (inventoryKey : String) : Bool :=
  match d.webhook.debounceCache[inventoryKey]? with
  | some last => withinDebounce d.clock last
  | none => false

def recordPush (inventoryKey : String) : Receiver :=
  { d with webhook :=
    { d.webhook with debounceCache := d.webhook.debounceCache.insert inventoryKey d.clock } }

def recordPushAndCheckDebounce (inventoryKey : String) : Bool × Receiver :=
  if d.debounces inventoryKey then (true, d) else (false, d.recordPush inventoryKey)

def log (deed : Deed) : Receiver := { d with deeds := d.deeds ++ [deed] }

/-- A poisoned projection is a panic, after which nothing is answered. -/
def executeRemove (deliveryId inventoryKey timestamp : String) : Option StatusCode × Receiver :=
  if d.app.projectionState.poisoned then (none, d)
  else if d.app.projectionState.value.repositories.contains inventoryKey then
    (none, { d with removing := d.removing ++ [⟨⟨inventoryKey, timestamp, 1⟩, deliveryId⟩] })
  else (some .ok, d.log (.absent deliveryId inventoryKey))

/-- The job goes to the queue, whose result is given. -/
def enqueue (job : JobSpec) (result : EnqueueResult) : StatusCode × Receiver :=
  match result with
  | .accepted => (.accepted, d.log (.taken job d.clock))
  | .deduplicated => (.ok, d.log (.taken job d.clock))
  | .queueFull => (.serviceUnavailable, d)

def executeEnqueue (eventType deliveryId inventoryKey : String) (repo : Repository)
    (timestamp : String) (result : EnqueueResult) : StatusCode × Receiver :=
  let job : JobSpec :=
    ⟨inventoryKey, ⟨repo, timestamp⟩, .external deliveryId eventType, none⟩
  if eventType = "push" then
    match d.recordPushAndCheckDebounce inventoryKey with
    | (true, d) => (.ok, d.log (.debounced deliveryId inventoryKey d.clock))
    | (false, d) => d.enqueue job result
  else d.enqueue job result

def execute (action : WebhookAction) (eventType deliveryId timestamp : String)
    (result : EnqueueResult) : Option StatusCode × Receiver :=
  match action with
  | .remove inventoryKey => d.executeRemove deliveryId inventoryKey timestamp
  | .enqueue inventoryKey repo =>
    let executed := d.executeEnqueue eventType deliveryId inventoryKey repo timestamp result
    (some executed.1, executed.2)
  | .ignore => (some .ok, d)

/-- A handler that stops before an action, or is done with it, answers; a panic does not. -/
def webhookHandler (O : Outside) (request : Request) (timestamp : String) (result : EnqueueResult) :
    Option Answer × Receiver :=
  match d.validateRequest O request with
  | .error status =>
    (some ⟨request.deliveryId.getD "", request.eventType.getD "", none, status⟩, d)
  | .ok (eventType, deliveryId) =>
    match mapEventToAction d.app O.decoder request.body eventType with
    | .error .panic => (none, d)
    | .error (.error _) => (some ⟨deliveryId, eventType, none, .badRequest⟩, d)
    | .ok action =>
      let answer (status : StatusCode) : Answer := ⟨deliveryId, eventType, action, status⟩
      match d.acceptWebhookDelivery deliveryId with
      | (false, d) => (some (answer .ok), d)
      | (true, d) =>
        let executed := d.execute action eventType deliveryId timestamp result
        (executed.1.map answer, executed.2)

/-- The next attempt of a removal; one that panics ends it without an answer. -/
def attemptRemoval (R : Runtime) (removing : ℕ) (fates : Fates) : Option Answer × Receiver :=
  match d.removing[removing]? with
  | none => (none, d)
  | some r =>
    let written := (App.machine R).step d.app (r.op, fates)
    let after := { d with app := written.2, removing := d.removing.eraseIdx removing }
    let answer (status : StatusCode) : Answer :=
      ⟨r.deliveryId, "repository", some (.remove r.inventoryKey), status⟩
    match attempted r.attempt written.1 with
    | .done => (some (answer .ok), after.log (.removed r.deliveryId r.inventoryKey))
    | .again =>
      let next := { r with attempt := r.attempt + 1 }
      (none, { after with removing := d.removing.set removing next })
    | .failed =>
      match written.1 with
      | .error .panic => (none, after)
      | _ => (some (answer .badGateway), after)

end Receiver

/-! ## Machine -/

/-- What is sent under a delivery id; a redelivery sends the same again. -/
structure Sent where
  eventType : String
  body : List UInt8

inductive ReceiverInput where
  | deliver (deliveryId : String) (signature : Option String) (timestamp : String)
      (result : EnqueueResult)
  | attempt (removing : ℕ) (fates : Fates)
  | write (op : WriteOp) (fates : Fates)
  | expire (deliveryIds inventoryKeys : List String)
  | wait (nanos : ℕ)

namespace Receiver

variable (d : Receiver)

/-- The replay and debounce entries that are dropped. -/
def expire (deliveryIds inventoryKeys : List String) : Receiver :=
  { d with webhook := { d.webhook with
      replayCache := d.webhook.replayCache.filter (· ∉ deliveryIds)
      debounceCache := d.webhook.debounceCache.filter fun key _ => key ∉ inventoryKeys } }

def request (sent : String → Sent) (deliveryId : String) (signature : Option String) : Request :=
  ⟨signature, some (sent deliveryId).eventType, some deliveryId, (sent deliveryId).body⟩

end Receiver

def receiver (R : Runtime) (O : Outside) (sent : String → Sent) :
    Machine Receiver ReceiverInput (Option Answer) where
  step d i :=
    match i with
    | .deliver deliveryId signature timestamp result =>
      d.webhookHandler O (Receiver.request sent deliveryId signature) timestamp result
    | .attempt removing fates => d.attemptRemoval R removing fates
    | .write op fates => (none, { d with app := ((App.machine R).step d.app (op, fates)).2 })
    | .expire deliveryIds inventoryKeys => (none, d.expire deliveryIds inventoryKeys)
    | .wait nanos => (none, { d with clock := d.clock + nanos })

/-- A process that was just started. -/
def Receiver.init (app : AppState) (secret : Option String) (clock : ℕ) : Receiver :=
  ⟨app, ⟨secret, [], ∅⟩, [], clock, []⟩

end GhReport.Webhook
