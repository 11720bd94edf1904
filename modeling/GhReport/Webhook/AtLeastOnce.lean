import GhReport.Publication.Continuity
import GhReport.Webhook.Handler

/-! # Deliveries carried out at least once

A delivery that was answered with success was carried out, and one that was answered
with a failure of the server is taken again when it comes back. This is so as long as
no delivery fails after it was entered into the replay cache.
-/

namespace GhReport.Webhook

open Domain App
open Delivery (JobSource)

/-! ## Specification -/

/-- A push that the queue took had the repository's push at this time in its window. -/
def PushTaken (deeds : List Deed) (inventoryKey : String) (time : ℕ) : Prop :=
  ∃ job last, Deed.taken job last ∈ deeds ∧ job.domainKey = inventoryKey ∧
    (∃ id, job.source = .external id "push") ∧ last ≤ time ∧ withinDebounce time last = true

/-- The history has the delivery's action as carried out. -/
def CarriedOut (deeds : List Deed) (deliveryId : String) : WebhookAction → Prop
  | .remove inventoryKey =>
    .absent deliveryId inventoryKey ∈ deeds ∨ .removed deliveryId inventoryKey ∈ deeds
  | .enqueue inventoryKey _ =>
    (∃ job time kind, Deed.taken job time ∈ deeds ∧ job.domainKey = inventoryKey ∧
      job.source = .external deliveryId kind) ∨
    ∃ time, Deed.debounced deliveryId inventoryKey time ∈ deeds ∧ PushTaken deeds inventoryKey time
  | .ignore => True

namespace Receiver

variable (R : Runtime) (O : Outside) (sent : String → Sent) (d : Receiver)

/-- Neither cache stands in the way of the delivery. -/
def TakesAgain (answer : Answer) : Prop :=
  answer.deliveryId ∉ d.webhook.replayCache ∧
    ∀ inventoryKey repo, answer.action = some (.enqueue inventoryKey repo) →
      answer.eventType = "push" → d.debounces inventoryKey = false

/-- Success is for what was carried out; a failure of the server leaves it to a redelivery. -/
def Answered (answer : Option Answer) : Prop :=
  ∀ a, answer = some a →
    (∀ action, a.action = some action → a.status.isSuccess →
      CarriedOut d.deeds a.deliveryId action) ∧
    (a.status.isServerError → d.TakesAgain a)

def AtLeastOnce (d : Receiver) (i : ReceiverInput) : Prop :=
  ((receiver R O sent).step d i).2.Answered ((receiver R O sent).step d i).1

def mapped (deliveryId : String) : Except (Stop WebhookError) WebhookAction :=
  mapEventToAction d.app O.decoder (sent deliveryId).body (sent deliveryId).eventType

/-- A fresh delivery is not refused by the queue and meets no poisoned projection. -/
def Executes (eventType : String) (result : EnqueueResult) : WebhookAction → Prop
  | .remove _ => d.app.projectionState.poisoned = false
  | .enqueue inventoryKey _ =>
    result = .queueFull → eventType = "push" ∧ d.debounces inventoryKey = true
  | .ignore => True

/-- A delivery is executed if it is fresh, and else comes after the end of its removal. -/
def Delivers (deliveryId : String) (signature : Option String) (result : EnqueueResult) : Prop :=
  (d.validateRequest O (request sent deliveryId signature)).isOk →
    ∀ action ∈ (d.mapped O sent deliveryId).toOption,
      if deliveryId ∈ d.webhook.replayCache then ∀ r ∈ d.removing, r.deliveryId ≠ deliveryId
      else d.Executes (sent deliveryId).eventType result action

/-- The removal does not fail for good while its delivery is in the replay cache. -/
def Removes (removing : ℕ) (fates : Fates) : Prop :=
  ∀ r ∈ d.removing[removing]?, r.deliveryId ∈ d.webhook.replayCache →
    attempted r.attempt ((App.machine R).step d.app (r.op, fates)).1 ≠ .failed

/-- The step fails no delivery that is in the replay cache. -/
def CarriesThrough (d : Receiver) : ReceiverInput → Prop
  | .deliver deliveryId signature _ result => d.Delivers O sent deliveryId signature result
  | .attempt removing fates => d.Removes R removing fates
  | _ => True

instance (eventType : String) (result : EnqueueResult) :
    ∀ action, Decidable (d.Executes eventType result action)
  | .remove _ => inferInstanceAs (Decidable (_ = false))
  | .enqueue .. => inferInstanceAs (Decidable (_ → _ ∧ _))
  | .ignore => .isTrue trivial

instance : ∀ i, Decidable (d.CarriesThrough R O sent i)
  | .deliver .. => inferInstanceAs (Decidable (_ → ∀ action ∈ _, _))
  | .attempt .. => inferInstanceAs (Decidable (∀ r ∈ _, _ → _ ≠ _))
  | .write .. | .expire .. | .wait .. => .isTrue trivial

/-! ## Invariant -/

/-- The delivery was carried out, or its removal is still being written. -/
def Settled (deliveryId : String) : Prop :=
  ∀ s action,
    mapEventToAction s O.decoder (sent deliveryId).body (sent deliveryId).eventType = .ok action →
      CarriedOut d.deeds deliveryId action ∨ ∃ r ∈ d.removing, r.deliveryId = deliveryId

/-- The delivery is about the removal that is being written. -/
def IsRemoval (r : Removing) : Prop :=
  ∀ s action,
    mapEventToAction s O.decoder (sent r.deliveryId).body (sent r.deliveryId).eventType
      = .ok action → action = .remove r.inventoryKey

/-- The debounce entries are of pushes that the queue took. -/
def Windowed : Prop :=
  ∀ inventoryKey : String, ∀ last, d.webhook.debounceCache[inventoryKey]? = some last →
    last ≤ d.clock ∧ ∃ job, Deed.taken job last ∈ d.deeds ∧ job.domainKey = inventoryKey ∧
      ∃ id, job.source = .external id "push"

structure Sound : Prop where
  settled : ∀ deliveryId ∈ d.webhook.replayCache, d.Settled O sent deliveryId
  removing : ∀ r ∈ d.removing, IsRemoval O sent r
  windowed : d.Windowed

end Receiver

variable {R : Runtime} {O : Outside} {sent : String → Sent} {d d' : Receiver}
  {deeds deeds' : List Deed} {deliveryId : String} {action action' : WebhookAction}

theorem PushTaken.mono (hdeeds : deeds ⊆ deeds') {inventoryKey : String} {time : ℕ}
    (h : PushTaken deeds inventoryKey time) : PushTaken deeds' inventoryKey time := by
  obtain ⟨job, last, hjob, hrest⟩ := h
  exact ⟨job, last, hdeeds hjob, hrest⟩

theorem CarriedOut.mono (hdeeds : deeds ⊆ deeds') (h : CarriedOut deeds deliveryId action) :
    CarriedOut deeds' deliveryId action := by
  cases action with
  | remove inventoryKey => exact h.imp (fun h => hdeeds h) (fun h => hdeeds h)
  | enqueue inventoryKey repo =>
    rcases h with ⟨job, time, kind, hjob, hrest⟩ | ⟨time, hdebounced, htaken⟩
    · exact .inl ⟨job, time, kind, hdeeds hjob, hrest⟩
    · exact .inr ⟨time, hdeeds hdebounced, htaken.mono hdeeds⟩
  | ignore => trivial

theorem CarriedOut.agrees (h : CarriedOut deeds deliveryId action) (ha : action.Agrees action') :
    CarriedOut deeds deliveryId action' := by
  cases ha with
  | enqueue => exact h
  | remove => exact h
  | ignore => trivial

namespace Receiver

theorem Settled.mono (h : d.Settled O sent deliveryId) (hdeeds : d.deeds ⊆ d'.deeds)
    (hremoving : ∀ r ∈ d.removing, r.deliveryId = deliveryId →
      ∃ r' ∈ d'.removing, r'.deliveryId = deliveryId) : d'.Settled O sent deliveryId := by
  intro s action hmap
  rcases h s action hmap with hdone | ⟨r, hr, hid⟩
  · exact .inl (hdone.mono hdeeds)
  · exact .inr (hremoving r hr hid)

theorem settled_of_carriedOut (hmap : d.mapped O sent deliveryId = .ok action)
    (h : CarriedOut d'.deeds deliveryId action) : d'.Settled O sent deliveryId := by
  intro s action' hmap'
  exact .inl (h.agrees (mapEventToAction_agrees hmap hmap'))

theorem Windowed.mono (h : d.Windowed)
    (hcache : d'.webhook.debounceCache = d.webhook.debounceCache) (hclock : d.clock ≤ d'.clock)
    (hdeeds : d.deeds ⊆ d'.deeds) : d'.Windowed := by
  intro inventoryKey last hlast
  rw [hcache] at hlast
  obtain ⟨hle, job, hjob, hrest⟩ := h inventoryKey last hlast
  exact ⟨by omega, job, hdeeds hjob, hrest⟩

theorem Windowed.recordPush (h : d.Windowed) (job : JobSpec)
    (hid : ∃ id, job.source = .external id "push") :
    ((d.recordPush job.domainKey).log (.taken job d.clock)).Windowed := by
  intro inventoryKey last hlast
  change (d.webhook.debounceCache.insert job.domainKey d.clock)[inventoryKey]? = some last at hlast
  rw [KeyMap.getElem?_insert] at hlast
  split at hlast
  · next hkey =>
    cases hlast
    exact ⟨Nat.le_refl _, job, List.mem_append_right _ (List.mem_singleton_self _), hkey, hid⟩
  · obtain ⟨hle, job', hjob', hrest⟩ := h inventoryKey last hlast
    exact ⟨hle, job', List.mem_append_left _ hjob', hrest⟩

theorem Windowed.pushTaken (h : d.Windowed) {inventoryKey : String}
    (hdebounces : d.debounces inventoryKey = true) : PushTaken d.deeds inventoryKey d.clock := by
  unfold debounces at hdebounces
  split at hdebounces
  · next last hlast =>
    obtain ⟨hle, job, hjob, hkey, hid⟩ := h inventoryKey last hlast
    exact ⟨job, last, hjob, hkey, hid, hle, hdebounces⟩
  · cases hdebounces

/-! ## Answers -/

theorem answered_none : d.Answered none := by
  intro a h
  cases h

theorem answered_of_carriedOut {eventType : String} {status : StatusCode}
    (hstatus : status.isServerError = false) (h : CarriedOut d.deeds deliveryId action) :
    d.Answered (some ⟨deliveryId, eventType, some action, status⟩) := by
  intro a ha
  cases ha
  constructor
  · rintro action' haction -
    cases haction
    exact h
  · intro herror
    rw [hstatus] at herror
    cases herror

theorem answered_of_unclassified {eventType : String} {status : StatusCode}
    (hstatus : status.isServerError = false) :
    d.Answered (some ⟨deliveryId, eventType, none, status⟩) := by
  intro a ha
  cases ha
  constructor
  · intro action haction
    cases haction
  · intro herror
    rw [hstatus] at herror
    cases herror

/-! ## Deliveries -/

/-- A fresh delivery is entered, and nothing is forgotten. -/
theorem Sound.enter (h : d.Sound O sent)
    (hreplay : d'.webhook.replayCache = deliveryId :: d.webhook.replayCache)
    (hsettled : d'.Settled O sent deliveryId) (hdeeds : d.deeds ⊆ d'.deeds)
    (hremoving : d'.removing = d.removing) (hwindowed : d'.Windowed) : d'.Sound O sent where
  settled := by
    intro id hid
    rw [hreplay] at hid
    rcases List.mem_cons.mp hid with rfl | hid
    · exact hsettled
    · refine (h.settled id hid).mono hdeeds fun r hr hr' => ⟨r, ?_, hr'⟩
      rwa [hremoving]
  removing := by
    intro r hr
    rw [hremoving] at hr
    exact h.removing r hr
  windowed := hwindowed

theorem Sound.executeRemove (h : d.Sound O sent) {inventoryKey eventType timestamp : String}
    (hmap : d.mapped O sent deliveryId = .ok (.remove inventoryKey))
    (hpoisoned : d.app.projectionState.poisoned = false) :
    let executed := (d.enter deliveryId).executeRemove deliveryId inventoryKey timestamp
    executed.2.Sound O sent ∧ executed.2.Answered
      (executed.1.map fun status =>
        ⟨deliveryId, eventType, some (.remove inventoryKey), status⟩) := by
  unfold Receiver.executeRemove
  dsimp only
  split
  · next hpoison =>
    change d.app.projectionState.poisoned = true at hpoison
    rw [hpoisoned] at hpoison
    cases hpoison
  · split
    · refine ⟨?_, answered_none⟩
      let r : Removing := ⟨⟨inventoryKey, timestamp, 1⟩, deliveryId⟩
      have hmem : r ∈ d.removing ++ [r] := List.mem_append_right _ (List.mem_singleton_self _)
      constructor
      · intro id hid
        rcases List.mem_cons.mp hid with rfl | hid
        · exact fun _ _ _ => .inr ⟨r, hmem, rfl⟩
        · exact (h.settled id hid).mono (List.Subset.refl _) fun r' hr' hid' =>
            ⟨r', List.mem_append_left _ hr', hid'⟩
      · intro r' hr'
        rcases List.mem_append.mp hr' with hr' | hr'
        · exact h.removing r' hr'
        · cases List.mem_singleton.mp hr'
          intro s action hmap'
          cases mapEventToAction_agrees hmap hmap'
          rfl
      · exact h.windowed
    · have hdone : CarriedOut (d.deeds ++ [.absent deliveryId inventoryKey]) deliveryId
          (.remove inventoryKey) := .inl (List.mem_append_right _ (List.mem_singleton_self _))
      have hsub := List.subset_append_left d.deeds [.absent deliveryId inventoryKey]
      refine ⟨?_, answered_of_carriedOut rfl hdone⟩
      exact h.enter rfl (settled_of_carriedOut hmap hdone) hsub rfl
        (h.windowed.mono rfl (Nat.le_refl _) hsub)

/-- The queue takes the job, so the delivery is carried out. -/
theorem enqueue_taken (d : Receiver) (job : JobSpec) {result : EnqueueResult}
    (hresult : result ≠ .queueFull) :
    (d.enqueue job result).2 = d.log (.taken job d.clock) ∧
      (d.enqueue job result).1.isServerError = false := by
  cases result with
  | accepted => exact ⟨rfl, rfl⟩
  | deduplicated => exact ⟨rfl, rfl⟩
  | queueFull => exact absurd rfl hresult

theorem Sound.executeEnqueue (h : d.Sound O sent) {inventoryKey eventType timestamp : String}
    {repo : Repository} {result : EnqueueResult}
    (hmap : d.mapped O sent deliveryId = .ok (.enqueue inventoryKey repo))
    (htaken : result = .queueFull → eventType = "push" ∧ d.debounces inventoryKey) :
    let executed :=
      (d.enter deliveryId).executeEnqueue eventType deliveryId inventoryKey repo timestamp result
    executed.2.Sound O sent ∧ executed.2.Answered
      (some ⟨deliveryId, eventType, some (.enqueue inventoryKey repo), executed.1⟩) := by
  let job : JobSpec := ⟨inventoryKey, ⟨repo, timestamp⟩, .external deliveryId eventType, none⟩
  have hlog (deed : Deed) : d.deeds ⊆ d.deeds ++ [deed] := List.subset_append_left _ _
  have hmem (deed : Deed) : deed ∈ d.deeds ++ [deed] :=
    List.mem_append_right _ (List.mem_singleton_self _)
  have hdone : CarriedOut (d.deeds ++ [.taken job d.clock]) deliveryId
      (.enqueue inventoryKey repo) := .inl ⟨job, d.clock, eventType, hmem _, rfl, rfl⟩
  have hsettled (d' : Receiver) (hdeeds : d'.deeds = d.deeds ++ [.taken job d.clock]) :
      d'.Settled O sent deliveryId := by
    rw [← hdeeds] at hdone
    exact settled_of_carriedOut hmap hdone
  unfold Receiver.executeEnqueue
  dsimp only
  split
  · next hpush =>
    unfold recordPushAndCheckDebounce
    by_cases hdebounces : (d.enter deliveryId).debounces inventoryKey = true
    · rw [if_pos hdebounces]
      have hdebounced : CarriedOut (d.deeds ++ [.debounced deliveryId inventoryKey d.clock])
          deliveryId (.enqueue inventoryKey repo) :=
        .inr ⟨d.clock, hmem _, (h.windowed.pushTaken hdebounces).mono (hlog _)⟩
      refine ⟨?_, answered_of_carriedOut rfl hdebounced⟩
      exact h.enter rfl (settled_of_carriedOut hmap hdebounced) (hlog _) rfl
        (h.windowed.mono rfl (Nat.le_refl _) (hlog _))
    · rw [if_neg hdebounces]
      have hresult : result ≠ .queueFull := fun hfull => hdebounces (htaken hfull).2
      obtain ⟨hstate, hstatus⟩ :=
        enqueue_taken ((d.enter deliveryId).recordPush inventoryKey) job hresult
      dsimp only
      rw [hstate]
      refine ⟨?_, answered_of_carriedOut hstatus hdone⟩
      have hwindowed : (d.enter deliveryId).Windowed := h.windowed
      refine h.enter rfl (hsettled _ rfl) (hlog _) rfl
        (hwindowed.recordPush job ⟨deliveryId, ?_⟩)
      change JobSource.external deliveryId eventType = _
      rw [hpush]
  · next hpush =>
    have hresult : result ≠ .queueFull := fun hfull => hpush (htaken hfull).1
    obtain ⟨hstate, hstatus⟩ := enqueue_taken (d.enter deliveryId) job hresult
    rw [hstate]
    refine ⟨?_, answered_of_carriedOut hstatus hdone⟩
    exact h.enter rfl (hsettled _ rfl) (hlog _) rfl
      (h.windowed.mono rfl (Nat.le_refl _) (hlog _))

/-- A refused request is answered with an error of the client. -/
theorem validateRequest_error {request : Request} {status : StatusCode}
    (h : d.validateRequest O request = .error status) : status.isServerError = false := by
  unfold validateRequest at h
  split at h
  · cases h
    rfl
  · cases h
    rfl
  · split at h
    · cases h
      rfl
    · split at h
      · cases h
      · cases h
        rfl

theorem validateRequest_ok {signature : Option String} {parts : String × String}
    (h : d.validateRequest O (request sent deliveryId signature) = .ok parts) :
    parts = ((sent deliveryId).eventType, deliveryId) := by
  unfold validateRequest at h
  split at h
  · cases h
  · cases h
  · split at h
    · cases h
    · cases h
      rfl

theorem Sound.execute (h : d.Sound O sent) {timestamp : String} {result : EnqueueResult}
    (hmap : d.mapped O sent deliveryId = .ok action)
    (hi : d.Executes (sent deliveryId).eventType result action) :
    let eventType := (sent deliveryId).eventType
    let executed := (d.enter deliveryId).execute action eventType deliveryId timestamp result
    executed.2.Sound O sent ∧ executed.2.Answered
      (executed.1.map fun status => ⟨deliveryId, eventType, some action, status⟩) := by
  cases action with
  | remove inventoryKey => exact h.executeRemove hmap hi
  | enqueue inventoryKey repo => exact h.executeEnqueue hmap hi
  | ignore =>
    refine ⟨?_, answered_of_carriedOut rfl trivial⟩
    exact h.enter rfl (settled_of_carriedOut hmap trivial) (List.Subset.refl _) rfl h.windowed

theorem Sound.webhookHandler (h : d.Sound O sent) {signature : Option String} {timestamp : String}
    {result : EnqueueResult} (hi : d.Delivers O sent deliveryId signature result) :
    let handled := d.webhookHandler O (request sent deliveryId signature) timestamp result
    handled.2.Sound O sent ∧ handled.2.Answered handled.1 := by
  unfold Delivers at hi
  unfold Receiver.webhookHandler
  cases hvalid : d.validateRequest O (request sent deliveryId signature) with
  | error status => exact ⟨h, answered_of_unclassified (validateRequest_error hvalid)⟩
  | ok parts =>
    cases validateRequest_ok hvalid
    have hmapped : mapEventToAction d.app O.decoder (request sent deliveryId signature).body
        (sent deliveryId).eventType = d.mapped O sent deliveryId := rfl
    dsimp only
    rw [hmapped]
    have hi := hi (by rw [hvalid]; rfl)
    cases hmap : d.mapped O sent deliveryId with
    | error stop =>
      cases stop with
      | error e => exact ⟨h, answered_of_unclassified rfl⟩
      | panic => exact ⟨h, answered_none⟩
    | ok action =>
      have hi := hi action (by rw [hmap]; rfl)
      dsimp only
      unfold acceptWebhookDelivery
      by_cases hmem : deliveryId ∈ d.webhook.replayCache
      · rw [if_pos hmem] at hi ⊢
        refine ⟨h, answered_of_carriedOut rfl ?_⟩
        -- the earlier delivery is done with, since none of its removals is under way
        rcases h.settled deliveryId hmem d.app action hmap with hdone | ⟨r, hr, hid⟩
        · exact hdone
        · exact absurd hid (hi r hr)
      · rw [if_neg hmem] at hi ⊢
        exact h.execute hmap hi

/-! ## Removals -/

/-- A removal leaves the list when nothing waits for it. -/
theorem Sound.leave (h : d.Sound O sent) {n : ℕ} {r : Removing} (hr : d.removing[n]? = some r)
    (hremoving : d'.removing = d.removing.eraseIdx n)
    (hreplay : d'.webhook.replayCache = d.webhook.replayCache) (hdeeds : d.deeds ⊆ d'.deeds)
    (hwindowed : d'.Windowed)
    (hleft : r.deliveryId ∈ d.webhook.replayCache → d'.Settled O sent r.deliveryId) :
    d'.Sound O sent where
  settled := by
    intro id hid
    rw [hreplay] at hid
    by_cases hsame : id = r.deliveryId
    · subst hsame
      exact hleft hid
    · refine (h.settled id hid).mono hdeeds fun r' hr' hid' => ⟨r', ?_, hid'⟩
      rw [hremoving, List.mem_eraseIdx_iff_getElem?]
      obtain ⟨m, hm⟩ := List.getElem?_of_mem hr'
      refine ⟨m, ?_, hm⟩
      rintro rfl
      rw [hr] at hm
      cases hm
      exact hsame hid'.symm
  removing := by
    intro r' hr'
    rw [hremoving] at hr'
    exact h.removing r' (List.mem_of_mem_eraseIdx hr')
  windowed := hwindowed

theorem Sound.attemptRemoval (h : d.Sound O sent) {n : ℕ} {fates : Fates}
    (hi : d.Removes R n fates) :
    (d.attemptRemoval R n fates).2.Sound O sent ∧
      (d.attemptRemoval R n fates).2.Answered (d.attemptRemoval R n fates).1 := by
  unfold Receiver.attemptRemoval
  cases hr : d.removing[n]? with
  | none => exact ⟨h, answered_none⟩
  | some r =>
    have hmem : r ∈ d.removing := List.mem_of_getElem? hr
    have hfails := hi r hr
    dsimp only
    cases hattempt : attempted r.attempt ((App.machine R).step d.app (r.op, fates)).1 with
    | done =>
      have hdone : CarriedOut (d.deeds ++ [.removed r.deliveryId r.inventoryKey]) r.deliveryId
          (.remove r.inventoryKey) := .inr (List.mem_append_right _ (List.mem_singleton_self _))
      have hsub := List.subset_append_left d.deeds [.removed r.deliveryId r.inventoryKey]
      refine ⟨?_, answered_of_carriedOut rfl hdone⟩
      refine h.leave hr rfl rfl hsub (h.windowed.mono rfl (Nat.le_refl _) hsub) fun _ => ?_
      intro s action hmap
      rw [h.removing r hmem s action hmap]
      exact .inl hdone
    | again =>
      refine ⟨?_, answered_none⟩
      constructor
      · intro id hid
        refine (h.settled id hid).mono (List.Subset.refl _) fun r' hr' hid' => ?_
        obtain ⟨m, hm⟩ := List.getElem?_of_mem hr'
        by_cases hsame : n = m
        · subst hsame
          rw [hr] at hm
          cases hm
          have hlt : n < d.removing.length := (List.getElem?_eq_some_iff.mp hr).1
          exact ⟨{ r with attempt := r.attempt + 1 }, List.mem_set hlt _, hid'⟩
        · refine ⟨r', ?_, hid'⟩
          apply List.mem_of_getElem? (i := m)
          rw [List.getElem?_set_ne hsame, hm]
      · intro r' hr'
        rcases List.mem_or_eq_of_mem_set hr' with hold | rfl
        · exact h.removing r' hold
        · exact h.removing r hmem
      · exact h.windowed
    | failed =>
      have hnew : r.deliveryId ∉ d.webhook.replayCache := fun hin => hfails hin hattempt
      have hleave (app : AppState) :
          Sound O sent { d with app := app, removing := d.removing.eraseIdx n } :=
        h.leave hr rfl rfl (List.Subset.refl _) h.windowed fun hin => absurd hin hnew
      dsimp only
      split
      · exact ⟨hleave _, answered_none⟩
      · refine ⟨hleave _, ?_⟩
        intro a ha
        cases ha
        constructor
        · rintro action - hsuccess
          cases hsuccess
        · rintro -
          refine ⟨hnew, ?_⟩
          intro inventoryKey repo haction
          cases haction

/-! ## Runs -/

theorem Sound.step (h : d.Sound O sent) {i : ReceiverInput} (hi : d.CarriesThrough R O sent i) :
    ((receiver R O sent).step d i).2.Sound O sent ∧ AtLeastOnce R O sent d i := by
  unfold AtLeastOnce
  cases i with
  | deliver deliveryId signature timestamp result => exact h.webhookHandler hi
  | attempt removing fates => exact h.attemptRemoval hi
  | write op fates => exact ⟨⟨h.settled, h.removing, h.windowed⟩, answered_none⟩
  | expire deliveryIds inventoryKeys =>
    refine ⟨⟨?_, h.removing, ?_⟩, answered_none⟩
    · intro id hid
      exact h.settled id (List.mem_of_mem_filter hid)
    · intro inventoryKey last hlast
      change (d.webhook.debounceCache.filter fun key _ => key ∉ inventoryKeys)[inventoryKey]? = _
        at hlast
      rw [Std.ExtTreeMap.getElem?_filter', Option.filter_eq_some_iff] at hlast
      exact h.windowed inventoryKey last hlast.1
  | wait nanos =>
    have hwindowed : Windowed { d with clock := d.clock + nanos } :=
      h.windowed.mono rfl (Nat.le_add_right _ _) (List.Subset.refl _)
    exact ⟨⟨h.settled, h.removing, hwindowed⟩, answered_none⟩

theorem Sound.init (app : AppState) (secret : Option String) (clock : ℕ) :
    (Receiver.init app secret clock).Sound O sent where
  settled := nofun
  removing := nofun
  windowed := by
    intro inventoryKey last hlast
    simp [Receiver.init] at hlast

end Receiver

/--
Every delivery is carried out at least once, in every run whose steps fail no delivery that is
in the replay cache.
-/
theorem webhook_at_least_once (R : Runtime) (O : Outside) (sent : String → Sent) (app : AppState)
    (secret : Option String) (clock : ℕ) (is : List ReceiverInput)
    (hrun : (receiver R O sent).Along (Receiver.CarriesThrough R O sent)
      (.init app secret clock) is) :
    (receiver R O sent).Along (Receiver.AtLeastOnce R O sent) (.init app secret clock) is :=
  Machine.along_of_invariant (I := Receiver.Sound O sent) (fun _ _ h hi => h.step hi)
    (.init app secret clock) hrun

/-! ## Runs -/

section Runs

open Publication

def sampleWebhookRepository : WebhookRepository where
  id := 7
  nodeId := none
  name := "name"
  fullName := none
  visibility := none
  defaultBranch := none
  archived := false
  htmlUrl := none

/-- Every payload is of one repository, that was deleted; every body has one hash. -/
def sampleOutside : Outside where
  decoder :=
    { payload _ := .ok ⟨some sampleWebhookRepository, some "deleted"⟩
      push _ := .error "" }
  hmac _ _ := [0xab]

def sampleSent (eventType : String) (_ : String) : Sent := ⟨eventType, []⟩

def sampleDeliver (result : EnqueueResult) : ReceiverInput :=
  .deliver "delivery" (some "sha256=ab") sampleTimestamp result

def sampleReceiver : Receiver := .init .empty (some "secret") 0

def sampleStatuses (eventType : String) (is : List ReceiverInput) : List (Option StatusCode) :=
  ((receiver sampleRuntime sampleOutside (sampleSent eventType)).trace sampleReceiver is).map
    fun entry => entry.2.map Answer.status

def sampleReceived (eventType : String) (is : List ReceiverInput) : Receiver :=
  (receiver sampleRuntime sampleOutside (sampleSent eventType)).after sampleReceiver is

/-- A recorded repository, which the delivery says was deleted. -/
def sampleDeleted : List ReceiverInput :=
  [.write (.recordRepo "7" (sampleEvidence "7" true) "7" sampleTimestamp)
      ⟨landingOn .undefined, landingOn .undefined⟩, sampleDeliver .accepted]

/-- Its removal is written, and the delivery comes again. -/
def sampleRemoved : List ReceiverInput :=
  sampleDeleted ++ [.attempt 0 ⟨landingOn .active, landingOn .active⟩, sampleDeliver .accepted]

theorem webhook_at_least_once_removed :
    (receiver sampleRuntime sampleOutside (sampleSent "repository")).Along
      (Receiver.AtLeastOnce sampleRuntime sampleOutside (sampleSent "repository")) sampleReceiver
      sampleRemoved := by
  refine webhook_at_least_once sampleRuntime sampleOutside (sampleSent "repository") .empty
    (some "secret") 0 sampleRemoved ?_
  decide +kernel

/-- A session that the backend does not open for writing. -/
def sampleUnopened : Fate :=
  .returns ⟨.ok 1, .error ⟨.concurrencyConflict, "fenced"⟩, .ok .active, .ok .landed, .ok ()⟩

/-- Its removal is not written, and the delivery comes again. -/
def sampleUnremoved : List ReceiverInput :=
  sampleDeleted ++ [.attempt 0 ⟨sampleUnopened, sampleUnopened⟩, sampleDeliver .accepted]

example :
    sampleStatuses "repository" sampleUnremoved = [none, none, some .badGateway, some .ok] := by
  decide +kernel

/-- The queue is full, and the delivery comes again. -/
def sampleRefused : List ReceiverInput := [sampleDeliver .queueFull, sampleDeliver .accepted]

/-- The redelivery of what the queue refused is answered with success, and nothing was done. -/
theorem refused_delivery_acknowledged :
    ¬ ∀ (R : Runtime) (O : Outside) (sent : String → Sent) (app : AppState) (secret : Option String)
      (clock : ℕ) (is : List ReceiverInput),
      (receiver R O sent).Along (Receiver.AtLeastOnce R O sent) (.init app secret clock) is := by
  intro hclaim
  obtain ⟨-, hredelivered, -⟩ := hclaim sampleRuntime sampleOutside (sampleSent "member") .empty
    (some "secret") 0 sampleRefused
  let d := sampleReceived "member" [sampleDeliver .queueFull]
  let M := receiver sampleRuntime sampleOutside (sampleSent "member")
  let action : WebhookAction :=
    .enqueue "7" (buildRepositoryFromPayload sampleWebhookRepository)
  have hanswer : (M.step d (sampleDeliver .accepted)).1 =
      some ⟨"delivery", "member", some action, .ok⟩ := by
    decide +kernel
  have hnothing : (M.step d (sampleDeliver .accepted)).2.deeds = [] := by
    refine List.length_eq_zero_iff.mp ?_
    decide +kernel
  have hcarried := (hredelivered _ hanswer).1 action rfl rfl
  change CarriedOut (M.step d (sampleDeliver .accepted)).2.deeds "delivery" action at hcarried
  rw [hnothing] at hcarried
  rcases hcarried with ⟨job, time, kind, hmem, -⟩ | ⟨time, hmem, -⟩
  · cases hmem
  · cases hmem

end Runs

end GhReport.Webhook
