import GhReport.Library.History
import GhReport.Webhook.Handler

/-! # Authentic deliveries

Anyone may send anything. What the receiver does, it does because of a request that was
signed with its secret and that asks for just this, and for each delivery id once,
besides as often as the replay cache has forgotten it.
-/

namespace GhReport.Webhook

open App
open Collector (bytes stripPrefix)

/-! ## Signatures -/

/-- Two hexadecimal digits of either case, or a plus sign and one. -/
inductive SpellsByte : List Char → UInt8 → Prop
  | digits {high low : Char} {h l : UInt8} (hhigh : hexValue high = some h)
    (hlow : hexValue low = some l) : SpellsByte [high, low] (h * 16 + l)
  | plus {low : Char} {l : UInt8} (hlow : hexValue low = some l) : SpellsByte ['+', low] l

theorem hexPair_iff {high low : Char} {b : UInt8} :
    hexPair high low = some b ↔ SpellsByte [high, low] b := by
  unfold hexPair
  split_ifs with hplus
  · subst hplus
    constructor
    · exact .plus
    · rintro (⟨⟨⟩, _⟩ | h)
      exact h
  · simp only [Option.bind_eq_bind, Option.bind_eq_some_iff, Option.pure_def, Option.some.injEq]
    constructor
    · rintro ⟨h, hhigh, l, hlow, rfl⟩
      exact .digits hhigh hlow
    · rintro (⟨hhigh, hlow⟩ | _)
      · exact ⟨_, hhigh, _, hlow, rfl⟩
      · exact absurd rfl hplus

theorem SpellsByte.exists_eq {pair : List Char} {b : UInt8} (h : SpellsByte pair b) :
    ∃ high low, pair = [high, low] := by
  cases h <;> exact ⟨_, _, rfl⟩

theorem hexDecodeChars_iff {text : List Char} {decoded : List UInt8} :
    hexDecodeChars text = some decoded ↔
      ∃ pairs, text = pairs.flatten ∧ List.Forall₂ SpellsByte pairs decoded := by
  fun_induction hexDecodeChars text generalizing decoded with
  | case1 =>
    constructor
    · rintro ⟨⟩
      exact ⟨[], rfl, .nil⟩
    · rintro ⟨pairs, hflat, _ | ⟨hpair, _⟩⟩
      · rfl
      · obtain ⟨high, low, rfl⟩ := hpair.exists_eq
        cases hflat
  | case2 c =>
    constructor
    · rintro ⟨⟩
    · rintro ⟨pairs, hflat, _ | ⟨hpair, _⟩⟩
      · cases hflat
      · obtain ⟨high, low, rfl⟩ := hpair.exists_eq
        cases hflat
  | case3 high low rest ih =>
    simp only [Option.bind_eq_bind, Option.bind_eq_some_iff, Option.pure_def, Option.some.injEq,
      hexPair_iff, ih]
    constructor
    · rintro ⟨b, hpair, decoded, ⟨pairs, rfl, hrest⟩, rfl⟩
      exact ⟨[high, low] :: pairs, rfl, .cons hpair hrest⟩
    · rintro ⟨pairs, hflat, _ | ⟨hpair, hrest⟩⟩
      · cases hflat
      · obtain ⟨high', low', rfl⟩ := hpair.exists_eq
        cases hflat
        exact ⟨_, hpair, _, ⟨_, rfl, hrest⟩, rfl⟩

/-- A header that spells a hash. -/
def SpellsSignature (header : String) (mac : List UInt8) : Prop :=
  ∃ pairs, header = "sha256=" ++ String.ofList pairs.flatten ∧ List.Forall₂ SpellsByte pairs mac

theorem stripPrefix_eq_some_iff {pre text rest : String} :
    stripPrefix pre text = some rest ↔ text = pre ++ rest := by
  rw [← String.toList_inj, String.toList_append]
  unfold stripPrefix
  split_ifs with h
  · obtain ⟨tail, htail⟩ := List.isPrefixOf_iff_prefix.mp h
    rw [Option.some.injEq, ← String.toList_inj, String.toList_ofList, ← htail, List.drop_left,
      List.append_cancel_left_eq]
  · refine ⟨fun hnone => (by cases hnone), fun htext => absurd ?_ h⟩
    exact List.isPrefixOf_iff_prefix.mpr ⟨rest.toList, htext.symm⟩

theorem verifySignature_iff {O : Outside} {secret header : String} {body : List UInt8} :
    verifySignature O secret body header = true ↔
      SpellsSignature header (O.hmac (bytes secret) body) := by
  unfold verifySignature SpellsSignature
  constructor
  · intro h
    split at h
    · cases h
    · rename_i hex hstrip
      split at h
      · cases h
      · rename_i expected hdecode
        obtain ⟨pairs, hpairs, hspells⟩ := hexDecodeChars_iff.mp hdecode
        refine ⟨pairs, ?_, eq_of_beq h ▸ hspells⟩
        rw [stripPrefix_eq_some_iff.mp hstrip, ← hpairs, String.ofList_toList]
  · rintro ⟨pairs, rfl, hspells⟩
    have hdecode : hexDecode (String.ofList pairs.flatten) = some (O.hmac (bytes secret) body) := by
      rw [hexDecode, String.toList_ofList]
      exact hexDecodeChars_iff.mpr ⟨pairs, rfl, hspells⟩
    simp [stripPrefix_eq_some_iff.mpr rfl, hdecode]

/-! ## Open to all -/

/-- Requests of any content, and whatever else the process does meanwhile. -/
inductive OpenInput where
  | receive (request : Request) (timestamp : String) (result : EnqueueResult)
  | attempt (removing : ℕ) (fates : Fates)
  | write (op : WriteOp) (fates : Fates)
  | expire (deliveryIds inventoryKeys : List String)
  | wait (nanos : ℕ)

def openReceiver (R : Runtime) (O : Outside) : Machine Receiver OpenInput (Option Answer) where
  step d i :=
    match i with
    | .receive request timestamp result => d.webhookHandler O request timestamp result
    | .attempt removing fates => d.attemptRemoval R removing fates
    | .write op fates => (none, { d with app := ((App.machine R).step d.app (op, fates)).2 })
    | .expire deliveryIds inventoryKeys => (none, d.expire deliveryIds inventoryKeys)
    | .wait nanos => (none, { d with clock := d.clock + nanos })

def ReceiverInput.opened (sent : String → Sent) : ReceiverInput → OpenInput
  | deliver id signature timestamp result =>
    .receive (Receiver.request sent id signature) timestamp result
  | attempt removing fates => .attempt removing fates
  | write op fates => .write op fates
  | expire deliveryIds inventoryKeys => .expire deliveryIds inventoryKeys
  | wait nanos => .wait nanos

/-- The receiver of deliveries that are sent and sent again is the open one, less its forgers. -/
theorem after_receiver (R : Runtime) (O : Outside) (sent : String → Sent) (d : Receiver)
    (inputs : List ReceiverInput) :
    (receiver R O sent).after d inputs =
      (openReceiver R O).after d (inputs.map (·.opened sent)) := by
  induction inputs generalizing d with
  | nil => rfl
  | cons input inputs ih =>
    rw [List.map_cons, Machine.after_cons, Machine.after_cons, ih]
    cases input <;> rfl

/-! ## What was signed -/

def Deed.deliveryId : Deed → Option String
  | absent id _ | removed id _ | debounced id _ _ => some id
  | taken job _ =>
    match job.source with
    | .external id _ => some id
    | _ => none

/-- The deed is one that an event asks for. -/
inductive Deed.Serves (eventType id : String) : Deed → WebhookAction → Prop
  | absent (key : String) : Serves eventType id (.absent id key) (.remove key)
  | removed (key : String) : Serves eventType id (.removed id key) (.remove key)
  | taken (key : String) (repo : Domain.Repository) (timestamp : String) (time : ℕ) :
      Serves eventType id (.taken ⟨key, ⟨repo, timestamp⟩, .external id eventType, none⟩ time)
        (.enqueue key repo)
  | debounced (key : String) (repo : Domain.Repository) (time : ℕ) (hpush : eventType = "push") :
      Serves eventType id (.debounced id key time) (.enqueue key repo)

theorem Deed.Serves.deliveryId {eventType id : String} {deed : Deed} {action : WebhookAction}
    (h : deed.Serves eventType id action) : deed.deliveryId = some id := by
  cases h <;> rfl

/-- The replay cache forgets the delivery. -/
def OpenInput.expires (id : String) : OpenInput → Bool
  | expire deliveryIds _ => id ∈ deliveryIds
  | _ => false

/-- A request that asks a process for an action, and that is signed with the secret. -/
structure Request.Asks (O : Outside) (secret : Option String) (app : AppState)
    (request : Request) (eventType id : String) (action : WebhookAction) : Prop where
  signed : ∃ key signature, secret = some key ∧ request.signature = some signature ∧
    SpellsSignature signature (O.hmac (bytes key) request.body)
  eventType_eq : request.eventType = some eventType
  deliveryId_eq : request.deliveryId = some id
  mapped : mapEventToAction app O.decoder request.body eventType = .ok action

section Authorised

variable (R : Runtime) (O : Outside) (app : AppState) (secret : Option String) (clock : ℕ)

/-- The process as it is after some inputs. -/
def Receiver.reached (inputs : List OpenInput) : Receiver :=
  (openReceiver R O).after (.init app secret clock) inputs

/-- One of the requests asked for the action when it came in. -/
def Authorised (inputs : List OpenInput) (eventType id : String) (action : WebhookAction) : Prop :=
  ∃ before request timestamp result later,
    inputs = before ++ .receive request timestamp result :: later ∧
      request.Asks O secret (Receiver.reached R O app secret clock before).app eventType id action

end Authorised

theorem Authorised.append {R : Runtime} {O : Outside} {app : AppState} {secret : Option String}
    {clock : ℕ} {inputs : List OpenInput} {eventType id : String} {action : WebhookAction}
    (h : Authorised R O app secret clock inputs eventType id action) (input : OpenInput) :
    Authorised R O app secret clock (inputs ++ [input]) eventType id action := by
  obtain ⟨before, request, timestamp, result, later, rfl, hasks⟩ := h
  exact ⟨before, request, timestamp, result, later ++ [input],
    by rw [List.append_assoc, List.cons_append], hasks⟩

namespace Receiver

/-- The deliveries that something was done for, and those with a removal under way. -/
def works (d : Receiver) : List String :=
  d.deeds.filterMap Deed.deliveryId ++ d.removing.map (·.deliveryId)

/--
Everything done and under way is among what is allowed, and every delivery that
something was done for is in the replay cache, or was.
-/
structure Accounts (secret : Option String) (Allowed : String → String → WebhookAction → Prop)
    (inputs : List OpenInput) (d : Receiver) : Prop where
  secret_eq : d.webhook.secret = secret
  deeds : ∀ deed ∈ d.deeds, ∃ eventType id action,
    deed.Serves eventType id action ∧ Allowed eventType id action
  removing : ∀ r ∈ d.removing, ∃ eventType, Allowed eventType r.deliveryId (.remove r.inventoryKey)
  once : ∀ id, d.works.count id + (if id ∈ d.webhook.replayCache then 0 else 1) ≤
    1 + inputs.countP (·.expires id)

variable {O : Outside} {secret : Option String} {d d' : Receiver} {inputs : List OpenInput}
  {Allowed Allowed' : String → String → WebhookAction → Prop}

theorem accounts_init (app : AppState) (clock : ℕ) :
    (init app secret clock).Accounts secret Allowed [] where
  secret_eq := rfl
  deeds := by rintro _ ⟨⟩
  removing := by rintro _ ⟨⟩
  once id := by simp [works, init]

theorem Accounts.mono (h : d.Accounts secret Allowed inputs)
    (hallowed : ∀ eventType id action, Allowed eventType id action →
      Allowed' eventType id action) : d.Accounts secret Allowed' inputs where
  secret_eq := h.secret_eq
  deeds deed hd := by
    obtain ⟨eventType, id, action, hserves, hasked⟩ := h.deeds deed hd
    exact ⟨eventType, id, action, hserves, hallowed _ _ _ hasked⟩
  removing r hr := by
    obtain ⟨eventType, hasked⟩ := h.removing r hr
    exact ⟨eventType, hallowed _ _ _ hasked⟩
  once := h.once

/-- A step that carries on with what is under way, and may forget what it expires. -/
theorem Accounts.carry (h : d.Accounts secret Allowed inputs) (input : OpenInput)
    (hsecret : d'.webhook.secret = d.webhook.secret)
    (hdeeds : ∀ deed ∈ d'.deeds,
      deed ∈ d.deeds ∨ ∃ r ∈ d.removing, deed = .removed r.deliveryId r.inventoryKey)
    (hremoving : ∀ r' ∈ d'.removing,
      ∃ r ∈ d.removing, r'.deliveryId = r.deliveryId ∧ r'.inventoryKey = r.inventoryKey)
    (hworks : d'.works.Subperm d.works)
    (hcache : ∀ id, id ∈ d.webhook.replayCache → id ∉ d'.webhook.replayCache → input.expires id) :
    d'.Accounts secret Allowed (inputs ++ [input]) where
  secret_eq := hsecret.trans h.secret_eq
  deeds deed hd := by
    rcases hdeeds deed hd with hd | ⟨r, hr, rfl⟩
    · exact h.deeds deed hd
    · obtain ⟨eventType, hallowed⟩ := h.removing r hr
      exact ⟨eventType, _, _, .removed _, hallowed⟩
  removing r' hr' := by
    obtain ⟨r, hr, hid, hkey⟩ := hremoving r' hr'
    rw [hid, hkey]
    exact h.removing r hr
  once id := by
    have hold := h.once id
    have hcount := hworks.count_le id
    have hforget := hcache id
    rw [List.countP_append, List.countP_singleton]
    by_cases hmem : id ∈ d.webhook.replayCache <;> by_cases hmem' : id ∈ d'.webhook.replayCache
    · simp only [hmem, hmem', if_true] at hold ⊢
      omega
    · simp only [hmem, hmem', hforget hmem hmem', if_true, if_false] at hold ⊢
      omega
    · simp only [hmem, hmem', if_true, if_false] at hold ⊢
      omega
    · simp only [hmem, hmem', if_false] at hold ⊢
      omega

/-- A step that only forgets what it expires. -/
theorem Accounts.keep (h : d.Accounts secret Allowed inputs) (input : OpenInput)
    (hsecret : d'.webhook.secret = d.webhook.secret) (hdeeds : d'.deeds = d.deeds)
    (hremoving : d'.removing = d.removing)
    (hcache : ∀ id, id ∈ d.webhook.replayCache → id ∉ d'.webhook.replayCache → input.expires id) :
    d'.Accounts secret Allowed (inputs ++ [input]) := by
  refine h.carry input hsecret (fun _ hd => .inl (hdeeds ▸ hd))
    (fun r hr => ⟨r, hremoving ▸ hr, rfl, rfl⟩) ?_ hcache
  rw [works, works, hdeeds, hremoving]

/-- What a handler does when it is asked for an action. -/
structure Does (eventType id : String) (action : WebhookAction) (d d' : Receiver) : Prop where
  secret_eq : d'.webhook.secret = d.webhook.secret
  replayCache_eq : d'.webhook.replayCache = d.webhook.replayCache
  deeds : ∀ deed ∈ d'.deeds, deed ∈ d.deeds ∨ deed.Serves eventType id action
  removing : ∀ r ∈ d'.removing, r ∈ d.removing ∨
    r.deliveryId = id ∧ action = .remove r.inventoryKey
  works : d'.works.Subperm (id :: d.works)

/-- A fresh delivery is entered, and then something may be done for it. -/
theorem Accounts.take (h : d.Accounts secret Allowed inputs) (input : OpenInput)
    {eventType id : String} {action : WebhookAction} (hfresh : id ∉ d.webhook.replayCache)
    (hallowed : Allowed eventType id action) (hdoes : Does eventType id action (d.enter id) d') :
    d'.Accounts secret Allowed (inputs ++ [input]) where
  secret_eq := hdoes.secret_eq.trans h.secret_eq
  deeds deed hd := by
    rcases hdoes.deeds deed hd with hd | hserves
    · exact h.deeds deed hd
    · exact ⟨eventType, id, action, hserves, hallowed⟩
  removing r hr := by
    rcases hdoes.removing r hr with hr | ⟨rfl, rfl⟩
    · exact h.removing r hr
    · exact ⟨eventType, hallowed⟩
  once id' := by
    have hold := h.once id'
    have hcount := hdoes.works.count_le id'
    have hentered : d'.webhook.replayCache = id :: d.webhook.replayCache := hdoes.replayCache_eq
    have hworks : (d.enter id).works = d.works := rfl
    rw [List.countP_append, List.countP_singleton, hentered]
    rw [hworks] at hcount
    rcases eq_or_ne id' id with rfl | hne
    · rw [List.count_cons_self] at hcount
      simp only [hfresh, List.mem_cons_self, if_true, if_false] at hold ⊢
      omega
    · rw [List.count_cons_of_ne hne.symm] at hcount
      simp only [List.mem_cons, hne, false_or]
      omega

section Handlers

variable {eventType id : String} {action : WebhookAction}

theorem does_nothing : Does eventType id action d d where
  secret_eq := rfl
  replayCache_eq := rfl
  deeds _ hd := .inl hd
  removing _ hr := .inl hr
  works := (List.sublist_cons_self ..).subperm

theorem does_log {deed : Deed} (h : deed.Serves eventType id action) :
    Does eventType id action d (d.log deed) where
  secret_eq := rfl
  replayCache_eq := rfl
  deeds e he := by
    rcases List.mem_append.mp he with he | he
    · exact .inl he
    · obtain rfl := List.mem_singleton.mp he
      exact .inr h
  removing _ hr := .inl hr
  works := by
    simp only [Receiver.works, log, List.filterMap_append, List.filterMap_cons, h.deliveryId,
      List.filterMap_nil, List.append_assoc]
    exact List.perm_middle.subperm

theorem does_enqueue (key : String) (repo : Domain.Repository) (timestamp : String)
    (result : EnqueueResult) : Does eventType id (.enqueue key repo) d
      (d.enqueue ⟨key, ⟨repo, timestamp⟩, .external id eventType, none⟩ result).2 := by
  cases result with
  | accepted | deduplicated => exact does_log (.taken ..)
  | queueFull => exact does_nothing

theorem does_executeEnqueue (key : String) (repo : Domain.Repository) (timestamp : String)
    (result : EnqueueResult) : Does eventType id (.enqueue key repo) d
      (d.executeEnqueue eventType id key repo timestamp result).2 := by
  unfold executeEnqueue recordPushAndCheckDebounce
  dsimp only
  split_ifs with hpush hdebounces
  · exact does_log (.debounced key repo d.clock hpush)
  · -- the window of the push is not among what is accounted for
    have h : Does eventType id (.enqueue key repo) (d.recordPush key) _ :=
      does_enqueue key repo timestamp result
    exact ⟨h.secret_eq, h.replayCache_eq, h.deeds, h.removing, h.works⟩
  · exact does_enqueue key repo timestamp result

theorem does_executeRemove (key timestamp : String) :
    Does eventType id (.remove key) d (d.executeRemove id key timestamp).2 := by
  unfold executeRemove
  split_ifs
  · exact does_nothing
  · refine ⟨rfl, rfl, fun _ hd => .inl hd, fun r hr => ?_, ?_⟩
    · rcases List.mem_append.mp hr with hr | hr
      · exact .inl hr
      · obtain rfl := List.mem_singleton.mp hr
        exact .inr ⟨rfl, rfl⟩
    · simp only [Receiver.works, List.map_append, List.map_cons, List.map_nil]
      rw [← List.append_assoc]
      exact (List.perm_append_singleton ..).subperm
  · exact does_log (.absent key)

theorem does_execute (timestamp : String) (result : EnqueueResult) :
    Does eventType id action d (d.execute action eventType id timestamp result).2 := by
  cases action with
  | remove key => exact does_executeRemove key timestamp
  | enqueue key repo => exact does_executeEnqueue key repo timestamp result
  | ignore => exact does_nothing

end Handlers

theorem asks_of_validateRequest {request : Request} {eventType id : String}
    {action : WebhookAction} (h : d.Accounts secret Allowed inputs)
    (hvalid : d.validateRequest O request = .ok (eventType, id))
    (hmapped : mapEventToAction d.app O.decoder request.body eventType = .ok action) :
    request.Asks O secret d.app eventType id action := by
  unfold validateRequest at hvalid
  split at hvalid
  · cases hvalid
  · cases hvalid
  · rename_i key signature hkey hsignature
    split_ifs at hvalid with hverify
    split at hvalid
    · rename_i hevent hdelivery
      cases hvalid
      refine ⟨⟨key, signature, h.secret_eq.symm.trans hkey, hsignature, ?_⟩, hevent, hdelivery,
        hmapped⟩
      exact verifySignature_iff.mp (by simpa using hverify)
    · cases hvalid

theorem Accounts.webhookHandler (h : d.Accounts secret Allowed inputs) (request : Request)
    (timestamp : String) (result : EnqueueResult)
    (hasks : ∀ eventType id action, request.Asks O secret d.app eventType id action →
      Allowed eventType id action) :
    (d.webhookHandler O request timestamp result).2.Accounts secret Allowed
      (inputs ++ [.receive request timestamp result]) := by
  have hkeep : d.Accounts secret Allowed (inputs ++ [.receive request timestamp result]) :=
    h.keep _ rfl rfl rfl fun _ hin hout => absurd hin hout
  unfold Receiver.webhookHandler
  cases hvalid : d.validateRequest O request with
  | error status => exact hkeep
  | ok parts =>
    obtain ⟨eventType, id⟩ := parts
    dsimp only
    split
    · exact hkeep
    · exact hkeep
    · rename_i action hmapped
      have hallowed := hasks eventType id action (asks_of_validateRequest h hvalid hmapped)
      unfold acceptWebhookDelivery
      by_cases hmem : id ∈ d.webhook.replayCache
      · rw [if_pos hmem]
        exact hkeep
      · rw [if_neg hmem]
        exact h.take _ hmem hallowed (does_execute timestamp result)

theorem Accounts.attemptRemoval (h : d.Accounts secret Allowed inputs) (R : Runtime) (n : ℕ)
    (fates : Fates) : (d.attemptRemoval R n fates).2.Accounts secret Allowed
      (inputs ++ [.attempt n fates]) := by
  unfold Receiver.attemptRemoval
  cases hr : d.removing[n]? with
  | none => exact h.keep _ rfl rfl rfl fun _ hin hout => absurd hin hout
  | some r =>
    obtain ⟨hlt, hget⟩ := List.getElem?_eq_some_iff.mp hr
    have hmem : r ∈ d.removing := hget ▸ List.getElem_mem hlt
    have hperm : (r :: d.removing.eraseIdx n).Perm d.removing :=
      hget ▸ List.getElem_cons_eraseIdx_perm hlt
    have hrest : ∀ r' ∈ d.removing.eraseIdx n, ∃ r ∈ d.removing,
        r'.deliveryId = r.deliveryId ∧ r'.inventoryKey = r.inventoryKey := fun r' hr' =>
      ⟨r', (List.eraseIdx_sublist ..).subset hr', rfl, rfl⟩
    have hdropped : (d.deeds.filterMap Deed.deliveryId ++
        (d.removing.eraseIdx n).map (·.deliveryId)).Subperm d.works :=
      (((List.eraseIdx_sublist ..).map _).append_left _).subperm
    dsimp only
    split
    · refine h.carry _ rfl (fun e he => ?_) hrest ?_ fun _ hin hout => absurd hin hout
      · rcases List.mem_append.mp he with he | he
        · exact .inl he
        · exact .inr ⟨r, hmem, List.mem_singleton.mp he⟩
      · simp only [Receiver.works, log, List.filterMap_append, List.filterMap_cons,
          List.filterMap_nil, Deed.deliveryId, List.append_assoc]
        exact ((hperm.map (·.deliveryId)).append_left _).subperm
    · refine h.carry _ rfl (fun _ hd => .inl hd) (fun r' hr' => ?_) ?_
        fun _ hin hout => absurd hin hout
      · rcases List.mem_or_eq_of_mem_set hr' with hr' | rfl
        · exact ⟨r', hr', rfl, rfl⟩
        · exact ⟨r, hmem, rfl, rfl⟩
      · have hset := (List.set_perm_cons_eraseIdx hlt { r with attempt := r.attempt + 1 }).map
          (·.deliveryId)
        exact ((hset.trans (hperm.map (·.deliveryId))).append_left _).subperm
    · split <;> exact h.carry _ rfl (fun _ hd => .inl hd) hrest hdropped
        fun _ hin hout => absurd hin hout

theorem Accounts.step (h : d.Accounts secret Allowed inputs) (R : Runtime) (input : OpenInput)
    (hasks : ∀ request timestamp result, input = .receive request timestamp result →
      ∀ eventType id action, request.Asks O secret d.app eventType id action →
        Allowed eventType id action) :
    ((openReceiver R O).step d input).2.Accounts secret Allowed (inputs ++ [input]) := by
  cases input with
  | receive request timestamp result =>
    exact h.webhookHandler request timestamp result (hasks request timestamp result rfl)
  | attempt n fates => exact h.attemptRemoval R n fates
  | write op fates => exact h.keep _ rfl rfl rfl fun _ hin hout => absurd hin hout
  | expire deliveryIds inventoryKeys =>
    refine h.keep _ rfl rfl rfl fun id hin hout => ?_
    by_contra hexpires
    refine hout (List.mem_filter.mpr ⟨hin, ?_⟩)
    simpa [OpenInput.expires] using hexpires
  | wait nanos => exact h.keep _ rfl rfl rfl fun _ hin hout => absurd hin hout

variable (R : Runtime) (O : Outside) (app : AppState) (secret : Option String) (clock : ℕ)

theorem reached_accounts (inputs : List OpenInput) :
    (reached R O app secret clock inputs).Accounts secret
      (Authorised R O app secret clock inputs) inputs := by
  induction inputs using List.reverseRecOn with
  | nil => exact accounts_init app clock
  | append_singleton inputs input ih =>
    rw [reached, Machine.after_append]
    refine (ih.mono fun _ _ _ h => h.append input).step (O := O) R input ?_
    rintro request timestamp result rfl eventType id action hasks
    exact ⟨inputs, request, timestamp, result, [], rfl, hasks⟩

end Receiver

/--
Whoever sends whatever, and in whatever order: nothing is done and no removal is begun
but what a signed request asked for, and every delivery id is served once, unless the
replay cache has forgotten it.
-/
theorem receiver_authentic (R : Runtime) (O : Outside) (app : AppState) (secret : Option String)
    (clock : ℕ) (inputs : List OpenInput) :
    let d := Receiver.reached R O app secret clock inputs
    (∀ deed ∈ d.deeds, ∃ eventType id action, deed.Serves eventType id action ∧
        Authorised R O app secret clock inputs eventType id action) ∧
      (∀ r ∈ d.removing, ∃ eventType,
        Authorised R O app secret clock inputs eventType r.deliveryId (.remove r.inventoryKey)) ∧
      ∀ id, d.deeds.countP (·.deliveryId = some id) ≤ 1 + inputs.countP (·.expires id) := by
  intro d
  have h := Receiver.reached_accounts R O app secret clock inputs
  refine ⟨h.deeds, h.removing, fun id => ?_⟩
  calc d.deeds.countP (·.deliveryId = some id)
      = (d.deeds.filterMap Deed.deliveryId).count id := by
        rw [List.count, List.countP_filterMap]
        refine List.countP_congr fun deed _ => ?_
        cases deed.deliveryId <;> simp
    _ ≤ d.works.count id := by
        rw [Receiver.works, List.count_append]
        exact Nat.le_add_right _ _
    _ ≤ 1 + inputs.countP (·.expires id) := (Nat.le_add_right _ _).trans (h.once id)

end GhReport.Webhook
