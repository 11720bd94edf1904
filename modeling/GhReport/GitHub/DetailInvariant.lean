import GhReport.GitHub.DetailCache

/-! # Invariants of cached details

What is true of every entry is true of what calls carry from and to the cache. A
condition on entries that the exchanges with the server justify is kept by every
step, up to the ETags that calls take from the side map.
-/

namespace GhReport.GitHub

open Domain

/-- A call that carries nothing for the cache. -/
inductive Call.Idle : Call → Prop where
  | rereading (name path : String) : Idle (.rereading name path)
  | requesting (name path : String) : Idle (.requesting name path)
  | failed (name path : String) (statusCode : Option UInt16) (error : String) (retryable : Bool)
      (responseEtag : Option String) (received : ℤ) :
      Idle (.responded name path (.failure statusCode error retryable) responseEtag received)
  | returned : Idle .returned

/-- A condition on entries, on what calls carry, and on the ETag taken for the one received. -/
structure EntryInvariant where
  Entry : List Exchange → String → CachedResult → Prop
  Carried : List Exchange → Call → Prop
  Takes : Option String → Option String → Prop
  entry_mono {exchanges exchanges' : List Exchange} {name : String} {entry : CachedResult} :
    Entry exchanges name entry → exchanges ⊆ exchanges' → Entry exchanges' name entry
  carried_mono {exchanges exchanges' : List Exchange} {call : Call} :
    Carried exchanges call → exchanges ⊆ exchanges' → Carried exchanges' call
  idle {exchanges : List Exchange} {call : Call} : call.Idle → Carried exchanges call
  revalidating {exchanges : List Exchange} {name path etag : String} {cached : CachedResult} :
    Entry exchanges name cached → cached.etag = some etag →
      Carried exchanges (.revalidating name path etag cached.data cached.statusCode)
  full {exchanges : List Exchange} {name : String} {statusCode : UInt16} {data : Option Json}
    {etag : Option String} {time : ℤ} : .full name data etag time ∈ exchanges →
      Entry exchanges name ⟨statusCode, data, etag, false, time⟩
  confirmed {exchanges : List Exchange} {name path sent : String} {statusCode : UInt16}
    {data : Option Json} {etag : Option String} {time : ℤ} :
    Carried exchanges (.revalidating name path sent data statusCode) →
      .notModified name data sent etag time ∈ exchanges →
        Entry exchanges name ⟨statusCode, data, etag.or (some sent), false, time⟩
  responded {exchanges : List Exchange} {name path : String} {statusCode : UInt16}
    {data : Option Json} {truncated : Bool} {etag : Option String} {time : ℤ} :
    .full name data etag time ∈ exchanges →
      Carried exchanges (.responded name path (.success statusCode data truncated) etag time)
  taken {exchanges : List Exchange} {name path : String} {statusCode : UInt16}
    {data : Option Json} {truncated : Bool} {own etag : Option String} {received : ℤ} :
    Carried exchanges (.responded name path (.success statusCode data truncated) own received) →
      Takes own etag → Carried exchanges (.storing name statusCode data etag received)
  stored {exchanges : List Exchange} {name : String} {statusCode : UInt16} {data : Option Json}
    {etag : Option String} {received : ℤ} :
    Carried exchanges (.storing name statusCode data etag received) →
      Entry exchanges name ⟨statusCode, data, etag, false, received⟩
  stale {exchanges : List Exchange} {name : String} {entry : CachedResult} :
    Entry exchanges name entry → Entry exchanges name { entry with stale := true }

namespace EntryInvariant

variable {I : EntryInvariant} {S : DetailSource} {c : DetailClient}

/-- The ETag that a call takes is one that the invariant allows for its response. -/
def TakesAt (I : EntryInvariant) (c : DetailClient) : DetailInput → Prop
  | .takeEtag i => ∀ name path statusCode data truncated own received,
    c.calls[i]? = some (.responded name path (.success statusCode data truncated) own received) →
      I.Takes own c.lastResponseEtags[path]?
  | _ => True

structure Holds (I : EntryInvariant) (c : DetailClient) : Prop where
  entries : KeyMap.All (I.Entry c.exchanges) c.repoDetailCache
  calls : ∀ call ∈ c.calls, I.Carried c.exchanges call

/-! ## Parts of a step -/

theorem Holds.call (h : I.Holds c) {i : ℕ} {call : Call} (hi : c.calls[i]? = some call) :
    I.Carried c.exchanges call :=
  h.calls call (List.mem_of_getElem? hi)

theorem Holds.append (h : I.Holds c) {call : Call} (hcall : I.Carried c.exchanges call) :
    I.Holds { c with calls := c.calls ++ [call] } := by
  refine ⟨h.entries, fun other hother => ?_⟩
  rcases List.mem_append.mp hother with hother | hother
  · exact h.calls other hother
  · obtain rfl := List.mem_singleton.mp hother
    exact hcall

theorem Holds.setCall (h : I.Holds c) (i : ℕ) {call : Call} (hcall : I.Carried c.exchanges call) :
    I.Holds (c.setCall i call) := by
  refine ⟨h.entries, fun other hother => ?_⟩
  rcases List.mem_or_eq_of_mem_set hother with hother | rfl
  · exact h.calls other hother
  · exact hcall

theorem Holds.cacheEntry (h : I.Holds c) {name : String} {entry : CachedResult}
    (hentry : I.Entry c.exchanges name entry) : I.Holds (c.cacheEntry name entry) :=
  ⟨h.entries.insert hentry, h.calls⟩

theorem Holds.log (h : I.Holds c) (exchange : Exchange) : I.Holds (c.log exchange) := by
  have hsub : c.exchanges ⊆ c.exchanges ++ [exchange] := List.subset_append_left ..
  exact ⟨h.entries.mono fun _ _ hentry => I.entry_mono hentry hsub,
    fun call hcall => I.carried_mono (h.calls call hcall) hsub⟩

theorem Holds.etags (h : I.Holds c) (etags : KeyMap String) :
    I.Holds { c with lastResponseEtags := etags } :=
  ⟨h.entries, h.calls⟩

theorem mem_log (c : DetailClient) (exchange : Exchange) : exchange ∈ (c.log exchange).exchanges :=
  List.mem_append_right _ (List.mem_singleton_self _)

/-! ## Steps -/

theorem Holds.repoDetails (h : I.Holds c) (name : String) : I.Holds (c.repoDetails S name).2 := by
  unfold DetailClient.repoDetails
  split
  · exact h
  · dsimp only
    split
    · next cached hcached =>
      split
      · split
        · next etag hetag => exact h.append (I.revalidating (h.entries name cached hcached) hetag)
        · exact h.append (I.idle (.requesting ..))
      · exact h
    · exact h.append (I.idle (.requesting ..))

theorem Holds.cacheRevalidatedResponse (h : I.Holds c) (i : ℕ) (name path : String)
    (statusCode : UInt16) (newEtag : Option String) (body : String) :
    I.Holds (c.cacheRevalidatedResponse S i name path statusCode newEtag body).2 := by
  unfold DetailClient.cacheRevalidatedResponse
  split
  · exact ((h.log _).cacheEntry (I.full (mem_log ..))).setCall i (I.idle .returned)
  · split
    · exact ((h.log _).cacheEntry (I.full (mem_log ..))).setCall i (I.idle (.rereading ..))
    · exact h.setCall i (I.idle (.requesting ..))

theorem Holds.tryEtagRevalidation (h : I.Holds c) (i : ℕ) (answer : Revalidation) :
    I.Holds (c.tryEtagRevalidation S i answer).2 := by
  unfold DetailClient.tryEtagRevalidation
  split
  · next name path etag data statusCode hcall =>
    cases answer with
    | fallThrough => exact h.setCall i (I.idle (.requesting ..))
    | notModified newEtag =>
      have hlogged := h.log (.notModified name data etag newEtag c.now)
      have hentry := I.confirmed (hlogged.call hcall) (mem_log ..)
      exact (hlogged.cacheEntry hentry).setCall i (I.idle .returned)
    | success statusCode newEtag body => exact h.cacheRevalidatedResponse i name path _ newEtag body
  · exact h

theorem Holds.reread (h : I.Holds c) (i : ℕ) : I.Holds (c.reread i).2 := by
  unfold DetailClient.reread
  split
  · split
    · exact h.setCall i (I.idle .returned)
    · exact h.setCall i (I.idle (.requesting ..))
  · exact h

/-- A request that succeeds carries the data and the ETag of its response. -/
theorem Holds.respond (h : I.Holds c) (i : ℕ) (reply : Reply) : I.Holds (c.respond S i reply) := by
  unfold DetailClient.respond
  split
  · next name path hcall =>
    cases reply with
    | failure statusCode error retryable => exact h.setCall i (I.idle (.failed ..))
    | body statusCode bodyBytes responseEtag =>
      dsimp only
      split
      · exact ((h.etags _).log _).setCall i (I.responded (mem_log ..))
      · next kind etags _ =>
        refine (h.etags _).setCall i ?_
        cases kind <;> exact I.idle (.failed ..)
  · exact h

theorem Holds.takeEtag (h : I.Holds c) (i : ℕ) (htakes : I.TakesAt c (.takeEtag i)) :
    I.Holds (c.takeEtag i).2 := by
  unfold DetailClient.takeEtag
  split
  · next name path outcome own received hcall =>
    dsimp only
    split
    · exact (h.etags _).setCall i (I.taken (h.call hcall) (htakes _ _ _ _ _ _ _ hcall))
    · exact (h.etags _).setCall i (I.idle .returned)
  · exact h

theorem Holds.store (h : I.Holds c) (i : ℕ) : I.Holds (c.store i).2 := by
  unfold DetailClient.store
  split
  · next hcall => exact (h.cacheEntry (I.stored (h.call hcall))).setCall i (I.idle .returned)
  · exact h

/-- Marking an entry as stale keeps its data, its ETag and its time. -/
theorem entry_markStale {exchanges : List Exchange} {name : String} {entry : CachedResult}
    (h : I.Entry exchanges name entry) (currentUpdatedAt : Option String) :
    I.Entry exchanges name (DetailClient.markStale currentUpdatedAt entry) := by
  unfold DetailClient.markStale
  split
  · split
    · exact I.stale h
    · exact h
  · exact h

theorem all_evictStaleEntries {exchanges : List Exchange} {entries : KeyMap CachedResult}
    (h : KeyMap.All (I.Entry exchanges) entries) (repos : List (String × Option String)) :
    KeyMap.All (I.Entry exchanges) (repos.foldl DetailClient.evictStaleEntry entries) := by
  induction repos generalizing entries with
  | nil => exact h
  | cons repo repos ih =>
    refine ih ?_
    unfold DetailClient.evictStaleEntry
    split
    · next cached hcached => exact h.insert (entry_markStale (h _ _ hcached) repo.2)
    · exact h

theorem Holds.step (h : I.Holds c) (i : DetailInput) (htakes : I.TakesAt c i) :
    I.Holds ((detailMachine S).step c i).2 := by
  cases i with
  | repoDetails name => exact h.repoDetails name
  | revalidate i answer => exact h.tryEtagRevalidation i answer
  | reread i => exact h.reread i
  | respond i reply => exact h.respond i reply
  | takeEtag i => exact h.takeEtag i htakes
  | store i => exact h.store i
  | cancel i => exact h.setCall i (I.idle .returned)
  | evictStaleEntries repos => exact ⟨all_evictStaleEntries h.entries repos, h.calls⟩
  | elapse n => exact ⟨h.entries, h.calls⟩

end EntryInvariant

end GhReport.GitHub
