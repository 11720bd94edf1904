import GhReport.GitHub.DetailInvariant

/-! # The age of cached details

Between runs the cache is exported, stored and seeded again, and an export stamps an
entry with its own time. Whether a seeded entry is within its TTL is therefore
decided by when its data was last fetched or confirmed, which the stamp hides.
-/

namespace GhReport.GitHub

open Domain

/-! ## Runs -/

/-- A day, in nanoseconds. -/
def repoCacheTtl : ℤ := 24 * 3600 * 10 ^ 9

/-- An entry that was seeded, and when. -/
structure Seeded where
  time : ℤ
  name : String
  detail : CachedRepoDetail

/-- The client with the exports that are kept between runs; `accepted` is a history. -/
structure DetailRuns where
  client : DetailClient
  stored : KeyMap CachedRepoDetail
  accepted : List Seeded

inductive DetailRunInput where
  | client (input : DetailInput)
  | clearRunCache
  | seedCache
  | exportCache
  | drop (name : String)

def accepts (now : ℤ) (entry : String × CachedRepoDetail) : Bool :=
  !(entry.2.fetchedAt < now - repoCacheTtl)

namespace DetailRuns

variable (r : DetailRuns)

def clearRunCache : DetailRuns :=
  { r with client := { r.client with repoDetailCache := ∅, lastResponseEtags := ∅ } }

def seedCache : DetailRuns :=
  let entries := r.stored.toList.filter (accepts r.client.now)
  { r with
    client := { r.client with
      repoDetailCache := KeyMap.insertAll r.client.repoDetailCache
        (entries.map fun entry => (entry.1, entry.2.seeded)) }
    accepted := r.accepted ++ entries.map fun entry => ⟨r.client.now, entry.1, entry.2⟩ }

def exportCache : DetailRuns :=
  let entries := r.client.repoDetailCache.toList.filterMap fun entry =>
    (entry.2.exported r.client.now).map fun detail => (entry.1, detail)
  { r with stored := KeyMap.insertAll r.stored entries }

end DetailRuns

/-- The store may drop an entry at any time. -/
def detailRuns (S : DetailSource) : Machine DetailRuns DetailRunInput DetailAnswer where
  step r
    | .client input =>
      let answered := (detailMachine S).step r.client input
      (answered.1, { r with client := answered.2 })
    | .clearRunCache => (.silent, r.clearRunCache)
    | .seedCache => (.silent, r.seedCache)
    | .exportCache => (.silent, r.exportCache)
    | .drop name => (.silent, { r with stored := r.stored.erase name })

def DetailRuns.init (now : ℤ) : DetailRuns := ⟨.init ∅ now, ∅, []⟩

/-! ## Fields -/

/-- The fields of the details that an export keeps. -/
def detailFields (data : Json) : String × Option String × Option Json × Option Bool :=
  (((data.get "default_branch").bind Json.asStr).getD "main",
    (data.get "updated_at").bind Json.asStr, data.get "security_and_analysis",
    (data.get "is_security_policy_enabled").bind Json.asBool)

section Fields

variable (detail : CachedRepoDetail)

@[simp] theorem get_defaultBranch :
    detail.object.get "default_branch" = some (.string detail.defaultBranch) := rfl

@[simp] theorem get_updatedAt :
    detail.object.get "updated_at" = detail.updatedAt.map Json.string := by
  obtain ⟨_, _ | _, _ | _, _ | _, _, _, _⟩ := detail <;> rfl

@[simp] theorem get_securityAndAnalysis :
    detail.object.get "security_and_analysis" = detail.securityAndAnalysis := by
  obtain ⟨_, _ | _, _ | _, _ | _, _, _, _⟩ := detail <;> rfl

@[simp] theorem get_isSecurityPolicyEnabled :
    detail.object.get "is_security_policy_enabled" =
      detail.isSecurityPolicyEnabled.map Json.bool := by
  obtain ⟨_, _ | _, _ | _, _ | _, _, _, _⟩ := detail <;> rfl

end Fields

/-- What was exported and seeded has the fields of the data it was exported from. -/
theorem detailFields_exported {cached : CachedResult} {data : Json} {now : ℤ}
    {detail : CachedRepoDetail} (hdata : cached.data = some data)
    (h : cached.exported now = some detail) : detailFields detail.object = detailFields data := by
  rw [CachedResult.exported, hdata] at h
  obtain rfl := Option.some.inj h
  simp only [detailFields, get_defaultBranch, get_updatedAt, get_securityAndAnalysis,
    get_isSecurityPolicyEnabled]
  generalize (data.get "updated_at").bind Json.asStr = updatedAt
  generalize (data.get "is_security_policy_enabled").bind Json.asBool = enabled
  cases updatedAt <;> cases enabled <;> rfl

/-! ## Attested data -/

def Exchange.time : Exchange → ℤ
  | full _ _ _ time | notModified _ _ _ _ time => time

/-- At this time the server sent or confirmed data with these fields. -/
def Attested (exchanges : List Exchange) (name : String) (data : Json) (time : ℤ) : Prop :=
  ∃ sent, detailFields sent = detailFields data ∧
    ((∃ etag, .full name (some sent) etag time ∈ exchanges) ∨
      ∃ before etag, .notModified name (some sent) before etag time ∈ exchanges)

theorem Attested.mono {exchanges exchanges' : List Exchange} {name : String} {data : Json}
    {time : ℤ} (h : Attested exchanges name data time) (hsub : exchanges ⊆ exchanges') :
    Attested exchanges' name data time := by
  obtain ⟨sent, hfields, ⟨etag, hfull⟩ | ⟨before, etag, hconfirmed⟩⟩ := h
  · exact ⟨sent, hfields, .inl ⟨etag, hsub hfull⟩⟩
  · exact ⟨sent, hfields, .inr ⟨before, etag, hsub hconfirmed⟩⟩

theorem Attested.exchange {exchanges : List Exchange} {name : String} {data : Json} {time : ℤ}
    (h : Attested exchanges name data time) : ∃ x ∈ exchanges, x.time = time := by
  obtain ⟨sent, -, ⟨etag, hfull⟩ | ⟨before, etag, hconfirmed⟩⟩ := h
  · exact ⟨_, hfull, rfl⟩
  · exact ⟨_, hconfirmed, rfl⟩

/-- Data that there is was attested at its time. -/
def AttestedAt (exchanges : List Exchange) (name : String) (data : Option Json) (time : ℤ) : Prop :=
  ∀ d, data = some d → Attested exchanges name d time

theorem AttestedAt.mono {exchanges exchanges' : List Exchange} {name : String}
    {data : Option Json} {time : ℤ} (h : AttestedAt exchanges name data time)
    (hsub : exchanges ⊆ exchanges') : AttestedAt exchanges' name data time :=
  fun d hd => (h d hd).mono hsub

theorem attestedAt_full {exchanges : List Exchange} {name : String} {data : Option Json}
    {etag : Option String} {time : ℤ} (h : .full name data etag time ∈ exchanges) :
    AttestedAt exchanges name data time := by
  rintro d rfl
  exact ⟨d, rfl, .inl ⟨etag, h⟩⟩

theorem attestedAt_notModified {exchanges : List Exchange} {name sent : String}
    {data : Option Json} {etag : Option String} {time : ℤ}
    (h : .notModified name data sent etag time ∈ exchanges) :
    AttestedAt exchanges name data time := by
  rintro d rfl
  exact ⟨d, rfl, .inr ⟨sent, etag, h⟩⟩

/-! ## Steps -/

/-- What a call carries was attested when its response arrived. -/
def Call.Attested (exchanges : List Exchange) : Call → Prop
  | responded name _ (.success _ data _) _ received => AttestedAt exchanges name data received
  | storing name _ data _ received => AttestedAt exchanges name data received
  | _ => True

def attestedEntries : EntryInvariant where
  Entry exchanges name entry := AttestedAt exchanges name entry.data entry.confirmed
  Carried exchanges call := call.Attested exchanges
  Takes _ _ := True
  entry_mono h hsub := h.mono hsub
  carried_mono := by
    intro exchanges exchanges' call h hsub
    cases call with
    | responded _ _ outcome =>
      cases outcome with
      | success => exact AttestedAt.mono h hsub
      | failure => trivial
    | storing => exact AttestedAt.mono h hsub
    | revalidating | rereading | requesting | returned => trivial
  idle h := by
    cases h <;> trivial
  revalidating _ _ := trivial
  full h := attestedAt_full h
  confirmed _ hsent := attestedAt_notModified hsent
  responded h := attestedAt_full h
  taken h _ := h
  stored h := h
  stale h := h

theorem attestedEntries_takesAt (c : DetailClient) (i : DetailInput) :
    attestedEntries.TakesAt c i := by
  cases i with
  | takeEtag => exact fun _ _ _ _ _ _ _ _ => trivial
  | _ => trivial

section Clock

variable {S : DetailSource} {c : DetailClient}

/-- No exchange is later than the clock. -/
def Past (c : DetailClient) : Prop := ∀ x ∈ c.exchanges, x.time ≤ c.now

/-- A step moves the clock, or logs an exchange at its present time. -/
theorem exchanges_step (c : DetailClient) (i : DetailInput) :
    c.exchanges ⊆ ((detailMachine S).step c i).2.exchanges ∧
      (Past c → Past ((detailMachine S).step c i).2) := by
  have hlog : ∀ x : Exchange, x.time = c.now → ∀ c' : DetailClient, c'.now = c.now →
      c'.exchanges = c.exchanges ++ [x] → c.exchanges ⊆ c'.exchanges ∧ (Past c → Past c') := by
    intro x hx c' hnow hexchanges
    rw [Past, Past, hexchanges, hnow]
    refine ⟨List.subset_append_left .., fun hpast y hy => ?_⟩
    rcases List.mem_append.mp hy with hy | hy
    · exact hpast y hy
    · rw [List.mem_singleton.mp hy]
      exact Int.le_of_eq hx
  have hsame : ∀ c' : DetailClient, c'.now = c.now → c'.exchanges = c.exchanges →
      c.exchanges ⊆ c'.exchanges ∧ (Past c → Past c') := by
    intro c' hnow hexchanges
    rw [Past, Past, hexchanges, hnow]
    exact ⟨List.Subset.refl _, id⟩
  cases i with
  | repoDetails name =>
    simp only [detailMachine, DetailClient.repoDetails]
    split
    · exact hsame _ rfl rfl
    · split
      · split
        · split
          · exact hsame _ rfl rfl
          · exact hsame _ rfl rfl
        · exact hsame _ rfl rfl
      · exact hsame _ rfl rfl
  | revalidate i answer =>
    simp only [detailMachine, DetailClient.tryEtagRevalidation]
    split
    · next name path etag data statusCode _ =>
      cases answer with
      | fallThrough => exact hsame _ rfl rfl
      | notModified newEtag => exact hlog (.notModified name data etag newEtag c.now) rfl _ rfl rfl
      | success statusCode newEtag body =>
        simp only [DetailClient.cacheRevalidatedResponse]
        split
        · exact hlog (.full name none newEtag c.now) rfl _ rfl rfl
        · split
          · next data _ => exact hlog (.full name (some data) newEtag c.now) rfl _ rfl rfl
          · exact hsame _ rfl rfl
    · exact hsame _ rfl rfl
  | reread i =>
    simp only [detailMachine, DetailClient.reread]
    split
    · split
      · exact hsame _ rfl rfl
      · exact hsame _ rfl rfl
    · exact hsame _ rfl rfl
  | respond i reply =>
    simp only [detailMachine, DetailClient.respond]
    split
    · next name path _ =>
      cases reply with
      | failure statusCode error retryable => exact hsame _ rfl rfl
      | body statusCode bodyBytes responseEtag =>
        dsimp only
        split
        · next data _ _ _ => exact hlog (.full name data responseEtag c.now) rfl _ rfl rfl
        · exact hsame _ rfl rfl
    · exact hsame _ rfl rfl
  | takeEtag i =>
    simp only [detailMachine, DetailClient.takeEtag]
    split
    · split
      · exact hsame _ rfl rfl
      · exact hsame _ rfl rfl
    · exact hsame _ rfl rfl
  | store i =>
    simp only [detailMachine, DetailClient.store]
    split
    · exact hsame _ rfl rfl
    · exact hsame _ rfl rfl
  | cancel i => exact hsame _ rfl rfl
  | evictStaleEntries repos => exact hsame _ rfl rfl
  | elapse n =>
    refine ⟨List.Subset.refl _, fun hpast x hx => ?_⟩
    have hle : x.time ≤ c.now := hpast x hx
    simp only [detailMachine]
    omega

end Clock

/-! ## Chains of runs -/

/--
No entry is seeded after the TTL of its last fetch or confirmation that is still within the
TTL of its last export.
-/
def SeedsInTime (r : DetailRuns) : DetailRunInput → Prop
  | .seedCache => ∀ entry ∈ r.stored.toList,
    ¬ (entry.2.confirmed + repoCacheTtl < r.client.now ∧
      r.client.now ≤ entry.2.fetchedAt + repoCacheTtl)
  | _ => True

instance (r : DetailRuns) : ∀ i, Decidable (SeedsInTime r i)
  | .seedCache => inferInstanceAs (Decidable (∀ entry ∈ r.stored.toList, _))
  | .client _ | .clearRunCache | .exportCache | .drop _ => .isTrue trivial

/-- Everything in the cache, in the store and among the seeded entries is attested. -/
structure Aged (r : DetailRuns) : Prop where
  client : attestedEntries.Holds r.client
  past : Past r.client
  stored : KeyMap.All (fun name detail =>
    Attested r.client.exchanges name detail.object detail.confirmed) r.stored
  accepted : ∀ seed ∈ r.accepted, ∃ time, seed.time - repoCacheTtl ≤ time ∧ time ≤ seed.time ∧
    Attested r.client.exchanges seed.name seed.detail.object time

variable {S : DetailSource} {r : DetailRuns}

theorem Aged.clientStep (h : Aged r) (i : DetailInput) :
    Aged { r with client := ((detailMachine S).step r.client i).2 } := by
  obtain ⟨hsub, hpast⟩ := exchanges_step (S := S) r.client i
  refine ⟨h.client.step i (attestedEntries_takesAt _ _), hpast h.past, ?_, ?_⟩
  · exact h.stored.mono fun _ _ hdetail => hdetail.mono hsub
  · intro seed hseed
    obtain ⟨time, hfrom, hto, hattested⟩ := h.accepted seed hseed
    exact ⟨time, hfrom, hto, hattested.mono hsub⟩

theorem Aged.exportCache (h : Aged r) : Aged r.exportCache := by
  refine ⟨h.client, h.past, h.stored.insertAll ?_, h.accepted⟩
  intro entry hentry
  obtain ⟨⟨name, cached⟩, hmem, hexported⟩ := List.mem_filterMap.mp hentry
  obtain ⟨detail, hdetail, rfl⟩ := Option.map_eq_some_iff.mp hexported
  have hcached := h.client.entries name cached
    (Std.ExtTreeMap.mem_toList_iff_getElem?_eq_some.mp hmem)
  obtain ⟨data, hdata, rfl⟩ := Option.map_eq_some_iff.mp hdetail
  obtain ⟨sent, hfields, hsent⟩ := hcached data hdata
  exact ⟨sent, hfields.trans (detailFields_exported hdata hdetail).symm, hsent⟩

theorem Aged.seedCache (h : Aged r) (htime : SeedsInTime r .seedCache) : Aged r.seedCache := by
  have hstored : ∀ entry ∈ r.stored.toList,
      Attested r.client.exchanges entry.1 entry.2.object entry.2.confirmed :=
    fun entry hentry => h.stored _ _ (Std.ExtTreeMap.mem_toList_iff_getElem?_eq_some.mp hentry)
  constructor
  · refine ⟨h.client.entries.insertAll ?_, h.client.calls⟩
    intro entry hentry
    obtain ⟨old, hold, rfl⟩ := List.mem_map.mp hentry
    rintro d ⟨⟩
    exact hstored old (List.mem_filter.mp hold).1
  · exact h.past
  · exact h.stored
  · intro seed hseed
    rcases List.mem_append.mp hseed with hseed | hseed
    · exact h.accepted seed hseed
    · obtain ⟨entry, hentry, rfl⟩ := List.mem_map.mp hseed
      obtain ⟨hmem, haccepted⟩ := List.mem_filter.mp hentry
      have hattested := hstored entry hmem
      obtain ⟨x, hx, htime'⟩ := hattested.exchange
      have hpast := h.past x hx
      have hgap := htime entry hmem
      simp only [accepts, Bool.not_eq_true', decide_eq_false_iff_not] at haccepted
      refine ⟨entry.2.confirmed, ?_, ?_, hattested⟩
      · dsimp only
        omega
      · dsimp only
        omega

theorem aged_step (r : DetailRuns) (i : DetailRunInput) (h : Aged r) (htime : SeedsInTime r i) :
    Aged ((detailRuns S).step r i).2 := by
  cases i with
  | client input => exact h.clientStep input
  | clearRunCache => exact ⟨⟨KeyMap.All.empty, h.client.calls⟩, h.past, h.stored, h.accepted⟩
  | seedCache => exact h.seedCache htime
  | exportCache => exact h.exportCache
  | drop name => exact ⟨h.client, h.past, h.stored.erase name, h.accepted⟩

/--
Over every chain of runs that seeds in time, each seeded entry has the fields of data that the
server sent or confirmed within the TTL.
-/
theorem seeded_within_ttl (S : DetailSource) (now : ℤ) (is : List DetailRunInput)
    (htime : (detailRuns S).Along SeedsInTime (.init now) is) :
    let r := (detailRuns S).after (.init now) is
    ∀ seed ∈ r.accepted, ∃ time, seed.time - repoCacheTtl ≤ time ∧ time ≤ seed.time ∧
      Attested r.client.exchanges seed.name seed.detail.object time := by
  have hinit : Aged (.init now) := by
    refine ⟨⟨KeyMap.All.empty, ?_⟩, ?_, KeyMap.All.empty, ?_⟩
    · intro call hcall
      cases hcall
    · intro x hx
      cases hx
    · intro seed hseed
      cases hseed
  exact (Machine.invariant_along (I := Aged) aged_step hinit htime).accepted

/-! ## A day and more -/

section Runs

def sampleHours (n : ℕ) : DetailRunInput := .client (.elapse (n * 3600 * 10 ^ 9))

/-- One run fetches the details of a repository and exports them some hours later. -/
def sampleFetched (hours : ℕ) : List DetailRunInput :=
  [.clearRunCache, .seedCache, .client (.repoDetails "repo"),
    .client (sampleRespond 0 0x31 "etag"), .client (.takeEtag 0), .client (.store 0),
    sampleHours hours, .exportCache]

def sampleRuns (is : List DetailRunInput) : DetailRuns :=
  (detailRuns sampleDetailSource).after (.init 0) is

/-- The next run serves them from its cache and exports them again. -/
def sampleCarried : List DetailRunInput :=
  sampleFetched 1 ++ [.clearRunCache, .seedCache, sampleHours 20, .exportCache, .clearRunCache,
    sampleHours 10, .seedCache]

/-- Details are seeded that the server last sent 31 hours before. -/
theorem seeded_after_ttl :
    let r := sampleRuns sampleCarried
    ∃ seed ∈ r.accepted, ¬ ∃ time, seed.time - repoCacheTtl ≤ time ∧ time ≤ seed.time ∧
      Attested r.client.exchanges seed.name seed.detail.object time := by
  intro r
  have htimes : r.client.exchanges.map Exchange.time = [0] := by
    decide +kernel
  have hseeds : r.accepted.map Seeded.time = [3600 * 10 ^ 9, 31 * 3600 * 10 ^ 9] := by
    decide +kernel
  have hmem : 31 * 3600 * 10 ^ 9 ∈ r.accepted.map Seeded.time := by
    rw [hseeds]
    exact List.mem_cons_of_mem _ (List.mem_singleton_self _)
  obtain ⟨seed, hseed, htime⟩ := List.mem_map.mp hmem
  refine ⟨seed, hseed, ?_⟩
  rintro ⟨time, hfrom, -, hattested⟩
  obtain ⟨x, hx, rfl⟩ := hattested.exchange
  have hzero := List.mem_map_of_mem (f := Exchange.time) hx
  rw [htimes, List.mem_singleton] at hzero
  rw [htime, hzero, repoCacheTtl] at hfrom
  omega

/-- Details that are seeded an hour after they were fetched are within their TTL. -/
theorem seeded_within_ttl_renewed :
    let r := sampleRuns (sampleFetched 1 ++ [.clearRunCache, .seedCache])
    r.accepted ≠ [] ∧ ∀ seed ∈ r.accepted, ∃ time, seed.time - repoCacheTtl ≤ time ∧
      time ≤ seed.time ∧ Attested r.client.exchanges seed.name seed.detail.object time := by
  refine ⟨?_, seeded_within_ttl sampleDetailSource 0 _ ?_⟩
  · decide +kernel
  · decide +kernel

end Runs

end GhReport.GitHub
