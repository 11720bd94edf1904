import GhReport.GitHub.DetailInvariant

/-! # Whose ETag is stored

An entry is genuine when its data and its ETag come from one response, or from a
confirmation of it. Whether all entries are is decided where a call takes an ETag
from the side map.
-/

namespace GhReport.GitHub

open Domain

/-- The data with its ETag: of an earlier entry, of one response, or confirmed later. -/
inductive Genuine (cache : KeyMap CachedResult) (exchanges : List Exchange) (name : String) :
    Option Json → Option String → Prop where
  | initial {entry : CachedResult} (h : cache[name]? = some entry) :
      Genuine cache exchanges name entry.data entry.etag
  | full {data : Option Json} {etag : Option String} {time : ℤ}
      (h : .full name data etag time ∈ exchanges) : Genuine cache exchanges name data etag
  | confirmed {data : Option Json} {sent : String} {etag : Option String} {time : ℤ}
      (h : Genuine cache exchanges name data (some sent))
      (hsent : .notModified name data sent etag time ∈ exchanges) :
      Genuine cache exchanges name data (etag.or (some sent))

variable {cache : KeyMap CachedResult}

theorem Genuine.mono {exchanges exchanges' : List Exchange} {name : String} {data : Option Json}
    {etag : Option String} (h : Genuine cache exchanges name data etag)
    (hsub : exchanges ⊆ exchanges') : Genuine cache exchanges' name data etag := by
  induction h with
  | initial h => exact .initial h
  | full h => exact .full (hsub h)
  | confirmed _ hsent ih => exact .confirmed ih (hsub hsent)

/-- What a call carries with it is of one response as well. -/
def Call.Genuine (cache : KeyMap CachedResult) (exchanges : List Exchange) : Call → Prop
  | revalidating name _ etag data _ => GitHub.Genuine cache exchanges name data (some etag)
  | responded name _ (.success _ data _) responseEtag _ =>
    GitHub.Genuine cache exchanges name data responseEtag
  | storing name _ data etag _ => GitHub.Genuine cache exchanges name data etag
  | _ => True

theorem Call.Genuine.mono {exchanges exchanges' : List Exchange} {call : Call}
    (h : call.Genuine cache exchanges) (hsub : exchanges ⊆ exchanges') :
    call.Genuine cache exchanges' := by
  cases call with
  | revalidating => exact GitHub.Genuine.mono h hsub
  | responded _ _ outcome =>
    cases outcome with
    | success => exact GitHub.Genuine.mono h hsub
    | failure => trivial
  | storing => exact GitHub.Genuine.mono h hsub
  | rereading | requesting | returned => trivial

/-- The entries are genuine as long as a call takes the ETag of its own response. -/
def genuineEntries (cache : KeyMap CachedResult) : EntryInvariant where
  Entry exchanges name entry := Genuine cache exchanges name entry.data entry.etag
  Carried exchanges call := call.Genuine cache exchanges
  Takes own taken := taken = own
  entry_mono h hsub := h.mono hsub
  carried_mono h hsub := h.mono hsub
  idle h := by
    cases h <;> trivial
  revalidating := by
    intro exchanges name path etag cached h hetag
    rwa [hetag] at h
  full h := .full h
  confirmed h hsent := .confirmed h hsent
  responded h := .full h
  taken := by
    intro exchanges name path statusCode data truncated own etag received h htaken
    rw [htaken]
    exact h
  stored h := h
  stale h := h

/-- A call that takes an ETag finds the one of its own response. -/
def TakesOwnEtag (c : DetailClient) : DetailInput → Prop
  | .takeEtag i =>
    match c.calls[i]? with
    | some (.responded _ path (.success ..) responseEtag _) =>
      c.lastResponseEtags[path]? = responseEtag
    | _ => True
  | _ => True

theorem takes_of_takesOwnEtag {c : DetailClient} {i : DetailInput} (h : TakesOwnEtag c i) :
    (genuineEntries cache).TakesAt c i := by
  cases i with
  | takeEtag i =>
    intro name path statusCode data truncated own received hcall
    simp only [TakesOwnEtag, hcall] at h
    exact h
  | _ => trivial

/-! ## Runs -/

/--
In every interleaving in which calls take the ETags of their own responses, each entry has the
data of one response with its ETag, or with the ETag of a later confirmation.
-/
theorem stored_etag_owned (S : DetailSource) (cache : KeyMap CachedResult) (now : ℤ)
    (is : List DetailInput) (hown : (detailMachine S).Along TakesOwnEtag (.init cache now) is) :
    let c := (detailMachine S).after (.init cache now) is
    ∀ name entry, c.repoDetailCache[name]? = some entry →
      Genuine cache c.exchanges name entry.data entry.etag := by
  have hinit : (genuineEntries cache).Holds (.init cache now) :=
    ⟨fun _ _ h => .initial h, fun call hcall => by cases hcall⟩
  exact (Machine.invariant_along (fun c i h hi => h.step i (takes_of_takesOwnEtag hi)) hinit
    hown).entries

/-! ## Two calls -/

section Calls

def sampleClient (is : List DetailInput) : DetailClient :=
  (detailMachine sampleDetailSource).after (.init ∅ 0) is

/-- The second response arrives before the first call takes its ETag. -/
def sampleOverlap : List DetailInput :=
  [.repoDetails "repo", .repoDetails "repo", sampleRespond 0 0x31 "first",
    sampleRespond 1 0x32 "second", .takeEtag 0, .store 0]

def sampleFull : Exchange → Option (String × Option String)
  | .full _ data etag _ => (data.bind Json.asStr).map fun text => (text, etag)
  | .notModified .. => none

/-- Without earlier entries and confirmations, what is genuine was sent as it is. -/
theorem Genuine.sent {exchanges : List Exchange} {name text : String} {data : Option Json}
    {etag : Option String} (h : Genuine ∅ exchanges name data etag)
    (hfull : ∀ exchange ∈ exchanges, (sampleFull exchange).isSome)
    (htext : data.bind Json.asStr = some text) :
    some (text, etag) ∈ exchanges.map sampleFull := by
  cases h with
  | initial h => simp at h
  | full h => exact List.mem_map.mpr ⟨_, h, by simp [sampleFull, htext]⟩
  | confirmed _ hsent =>
    have hsome := hfull _ hsent
    cases hsome

/-- The body of the first response is stored with the ETag of the second one. -/
theorem stored_etag_of_other :
    let c := sampleClient sampleOverlap
    ∃ entry, c.repoDetailCache["repo"]? = some entry ∧
      ¬ Genuine ∅ c.exchanges "repo" entry.data entry.etag := by
  intro c
  have hview : c.repoDetailCache["repo"]?.map (fun entry =>
      (entry.data.bind Json.asStr, entry.etag)) = some (some "1", some "second") := by
    decide +kernel
  have hexchanges : c.exchanges.map sampleFull =
      [some ("1", some "first"), some ("2", some "second")] := by
    decide +kernel
  obtain ⟨entry, hentry, hfields⟩ := Option.map_eq_some_iff.mp hview
  refine ⟨entry, hentry, fun hgenuine => ?_⟩
  obtain ⟨htext, hetag⟩ := Prod.mk.inj hfields
  have hsent := hgenuine.sent (fun exchange hmem => ?_) htext
  · rw [hexchanges, hetag] at hsent
    simp at hsent
  · have hmap := List.mem_map_of_mem (f := sampleFull) hmem
    rw [hexchanges] at hmap
    rcases List.mem_cons.mp hmap with h | h
    · rw [h]
      rfl
    · rw [List.mem_singleton.mp h]
      rfl

/-- One call after the other, each with the ETag of its own response. -/
def sampleSequence : List DetailInput :=
  [.repoDetails "repo", sampleRespond 0 0x31 "first", .takeEtag 0, .store 0]

theorem stored_etag_owned_sequence :
    let c := sampleClient sampleSequence
    ∀ name entry, c.repoDetailCache[name]? = some entry →
      Genuine ∅ c.exchanges name entry.data entry.etag := by
  refine stored_etag_owned sampleDetailSource ∅ 0 sampleSequence ?_
  refine ⟨trivial, trivial, ?_, trivial, trivial⟩
  change (_ : KeyMap String)[_]? = _
  decide +kernel

end Calls

end GhReport.GitHub
