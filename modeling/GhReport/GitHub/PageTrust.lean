import GhReport.GitHub.Client

/-! # Where a listing is asked for

Every request of a listing carries the token. The first goes to the configured address,
and each further one to an address of the trusted origin that the page before it named.
-/

namespace GhReport.GitHub

section Addresses

variable (C : Client) (server : ℕ → String → PageEnvironment)

/-- The address that a page is asked for at, if it is asked for. -/
def requestedUrl (s : PageLoop) : List String :=
  if (server (s.pageCount + 1) s.url).stops (s.pageCount + 1) then [] else [s.url]

/-- The addresses that a listing is asked for at, in turn. -/
def requestedUrls (path : String) : List String :=
  (paginate C server).trace (requestedUrl server) ⟨C.baseUrl ++ path, 0, []⟩

variable {C server}

/-- A page that is gone on from was asked for, and named the next one. -/
theorem requestedUrl_of_inr {s s' : PageLoop} (h : (paginate C server).step s = .inr s') :
    requestedUrl server s = [s.url] ∧ s.pageCount + 1 ≤ maxPaginationPages ∧
      s'.pageCount = s.pageCount + 1 ∧
      ∃ items, Fetched C (server (s.pageCount + 1) s.url) items (.one s'.url) ∧
        isSameOrigin C s'.url = true := by
  simp only [paginate] at h
  split at h
  · cases h
  · rename_i hstops
    split at h
    · cases h
    · rename_i response hsent
      obtain ⟨items, -, hfetched, hsame⟩ := (PageLoop.receive_fetched hsent).2 s' h
      exact ⟨if_neg hstops, PageEnvironment.le_of_not_stops hstops, PageLoop.receive_inr C h,
        items, hfetched, hsame⟩

variable (server) in
theorem requestedUrl_eq_nil_or (s : PageLoop) :
    requestedUrl server s = [] ∨
      requestedUrl server s = [s.url] ∧ s.pageCount + 1 ≤ maxPaginationPages := by
  unfold requestedUrl
  split_ifs with hstops
  · exact .inl rfl
  · exact .inr ⟨rfl, PageEnvironment.le_of_not_stops hstops⟩

/-- The addresses from a page on: its own is the first, and each names the next. -/
structure Confined (C : Client) (server : ℕ → String → PageEnvironment) (s : PageLoop)
    (urls : List String) : Prop where
  length_le : urls.length ≤ maxPaginationPages - s.pageCount
  head : ∀ url ∈ urls.head?, url = s.url
  next : ∀ i next, urls[i + 1]? = some next → ∃ url items, urls[i]? = some url ∧
    Fetched C (server (s.pageCount + i + 1) url) items (.one next) ∧ isSameOrigin C next = true

theorem confined_requestedUrl (s : PageLoop) : Confined C server s (requestedUrl server s) := by
  rcases requestedUrl_eq_nil_or server s with h | ⟨h, hpages⟩
  · rw [h]
    exact ⟨Nat.zero_le _, by rintro _ ⟨⟩, by rintro i next ⟨⟩⟩
  · rw [h]
    refine ⟨?_, ?_, by rintro i next ⟨⟩⟩
    · rw [List.length_singleton]
      omega
    · rintro url ⟨⟩
      rfl

theorem Confined.cons {s s' : PageLoop} {urls : List String} (h : Confined C server s' urls)
    (hstep : (paginate C server).step s = .inr s') :
    Confined C server s (requestedUrl server s ++ urls) := by
  obtain ⟨hurl, hpages, hcount, items, hfetched, hsame⟩ := requestedUrl_of_inr hstep
  have hlength := h.length_le
  rw [hurl, List.singleton_append]
  refine ⟨?_, ?_, fun i next hnext => ?_⟩
  · rw [List.length_cons]
    omega
  · rintro url ⟨⟩
    rfl
  · rw [List.getElem?_cons_succ] at hnext
    cases i with
    | zero =>
      obtain rfl := h.head next (by rw [List.head?_eq_getElem?, hnext]; rfl)
      exact ⟨s.url, items, rfl, hfetched, hsame⟩
    | succ i =>
      obtain ⟨url, items, hget, hfetched, hsame⟩ := h.next i next hnext
      have hindex : s'.pageCount + i + 1 = s.pageCount + (i + 1) + 1 := by omega
      exact ⟨url, items, hget, hindex ▸ hfetched, hsame⟩

variable (C server) in
theorem confined_trace (s : PageLoop) :
    Confined C server s ((paginate C server).trace (requestedUrl server) s) := by
  refine (paginate C server).exec_induction
    (P := fun s _ => Confined C server s ((paginate C server).trace (requestedUrl server) s))
    ?_ ?_ s
  · intro s w hs
    rw [Loop.trace_inl hs]
    exact confined_requestedUrl s
  · intro s s' hs ih
    rw [Loop.trace_inr hs]
    exact ih.cons hs

/--
Whatever the server answers: a listing makes a bounded number of requests, the first to
the configured address, and each other to one of the trusted origin that was named
as the next page by the answer to the request before, once that was read whole.
-/
theorem requestedUrls_confined (C : Client) (server : ℕ → String → PageEnvironment)
    (path : String) :
    let urls := requestedUrls C server path
    urls.length ≤ maxPaginationPages ∧ (∀ url ∈ urls.head?, url = C.baseUrl ++ path) ∧
      ∀ i next, urls[i + 1]? = some next → isSameOrigin C next = true ∧
        ∃ url items, urls[i]? = some url ∧
          Fetched C (server (i + 1) url) items (.one next) := by
  intro urls
  have h := confined_trace C server ⟨C.baseUrl ++ path, 0, []⟩
  refine ⟨h.length_le, h.head, fun i next hnext => ?_⟩
  obtain ⟨url, items, hget, hfetched, hsame⟩ := h.next i next hnext
  rw [Nat.zero_add] at hfetched
  exact ⟨hsame, url, items, hget, hfetched⟩

end Addresses

end GhReport.GitHub
