import GhReport.Library.Occurrence
import Mathlib.Data.List.Forall2
import Mathlib.Data.List.TakeWhile

/-! # Route templates

A request is named in a log by one of a few templates, which its target selects.
A template stands for the paths that have its segments, with anything in its holes.
-/

namespace GhReport.GitHub

open Occurrence

/-! ## Routes -/

inductive Route where
  | user
  | rateLimit
  | installationAccessTokens
  | orgRepos
  | orgMembers
  | orgTeams
  | teamMembers
  | orgSecretScanningAlerts
  | repo
  | repoRulesets
  | repoCommits
  | repoSecretScanningAlerts
  | branchProtection
  | repoContents
  | unmatched
deriving DecidableEq

namespace Route

def all : List Route :=
  [user, rateLimit, installationAccessTokens, orgRepos, orgMembers, orgTeams, teamMembers,
    orgSecretScanningAlerts, repo, repoRulesets, repoCommits, repoSecretScanningAlerts,
    branchProtection, repoContents, unmatched]

def template : Route → String
  | user => "/user"
  | rateLimit => "/rate_limit"
  | installationAccessTokens => "/app/installations/{installation_id}/access_tokens"
  | orgRepos => "/orgs/{org}/repos"
  | orgMembers => "/orgs/{org}/members"
  | orgTeams => "/orgs/{org}/teams"
  | teamMembers => "/orgs/{org}/teams/{team_slug}/members"
  | orgSecretScanningAlerts => "/orgs/{org}/secret-scanning/alerts"
  | repo => "/repos/{owner}/{repo}"
  | repoRulesets => "/repos/{owner}/{repo}/rulesets"
  | repoCommits => "/repos/{owner}/{repo}/commits"
  | repoSecretScanningAlerts => "/repos/{owner}/{repo}/secret-scanning/alerts"
  | branchProtection => "/repos/{owner}/{repo}/branches/{branch}/protection"
  | repoContents => "/repos/{owner}/{repo}/contents/{path}"
  | unmatched => "/{unmatched}"

/-- The place of a route among all of them. -/
def index : Route → ℕ
  | user => 0
  | rateLimit => 1
  | installationAccessTokens => 2
  | orgRepos => 3
  | orgMembers => 4
  | orgTeams => 5
  | teamMembers => 6
  | orgSecretScanningAlerts => 7
  | repo => 8
  | repoRulesets => 9
  | repoCommits => 10
  | repoSecretScanningAlerts => 11
  | branchProtection => 12
  | repoContents => 13
  | unmatched => 14

end Route

/-! ## From a target to its route -/

/-- The segments of a path, without the empty ones. -/
def pathSegments (path : List Char) : List String :=
  ((path.splitOn '/').filter fun segment => !segment.isEmpty).map String.ofList

def maxTrackedSegments : ℕ := 8

/-- Of a path with too many segments only the first are looked at. -/
def routeOf (path : List Char) : Route :=
  let segments := pathSegments path
  if maxTrackedSegments < segments.length then
    match segments.take maxTrackedSegments with
    | "repos" :: _ :: _ :: "contents" :: _ => .repoContents
    | _ => .unmatched
  else
    match segments with
    | ["user"] => .user
    | ["rate_limit"] => .rateLimit
    | ["app", "installations", _, "access_tokens"] => .installationAccessTokens
    | ["orgs", _, "repos"] => .orgRepos
    | ["orgs", _, "members"] => .orgMembers
    | ["orgs", _, "teams"] => .orgTeams
    | ["orgs", _, "teams", _, "members"] => .teamMembers
    | ["orgs", _, "secret-scanning", "alerts"] => .orgSecretScanningAlerts
    | ["repos", _, _] => .repo
    | ["repos", _, _, "rulesets"] => .repoRulesets
    | ["repos", _, _, "commits"] => .repoCommits
    | ["repos", _, _, "secret-scanning", "alerts"] => .repoSecretScanningAlerts
    | ["repos", _, _, "branches", _, "protection"] => .branchProtection
    | "repos" :: _ :: _ :: "contents" :: _ => .repoContents
    | _ => .unmatched

/-- What follows the authority of a target. -/
def authorityTail (authorityOnwards : List Char) : List Char :=
  authorityOnwards.dropWhile (· ≠ '/')

def pathForMatching (target : List Char) : List Char :=
  let rest := target.takeWhile (· ≠ '#')
  let rest := rest.takeWhile (· ≠ '?')
  let rest := match splitFirst [':', '/', '/'] rest with
    | some (_, after) => authorityTail after
    | none => rest
  if ['/', '/'] <+: rest then authorityTail (rest.drop 2) else rest

def routeOfTarget (target : List Char) : Route := routeOf (pathForMatching target)

/-! ## What a template stands for -/

inductive Piece where
  | literal (text : String)
  | hole
deriving DecidableEq

def Piece.Stands : Piece → String → Prop
  | literal text, segment => segment = text
  | hole, _ => True

/-- The pieces of a template: a segment in braces is a hole. -/
def Route.pieces (r : Route) : List Piece :=
  (pathSegments r.template.toList).map fun segment =>
    if segment.toList.head? = some '\x7b' then .hole else .literal segment

/-- The segments that a template stands for; the last hole of the contents is any path. -/
def Route.Matches (segments : List String) : Route → Prop
  | unmatched => False
  | repoContents => ∃ front path, segments = front ++ path ∧
      List.Forall₂ Piece.Stands (pieces repoContents).dropLast front
  | r => List.Forall₂ Piece.Stands r.pieces segments

section Pieces

open Route

@[simp] theorem pieces_user : pieces user = [.literal "user"] := by decide

@[simp] theorem pieces_rateLimit : pieces rateLimit = [.literal "rate_limit"] := by decide

@[simp] theorem pieces_installationAccessTokens : pieces installationAccessTokens =
    [.literal "app", .literal "installations", .hole, .literal "access_tokens"] := by decide

@[simp] theorem pieces_orgRepos :
    pieces orgRepos = [.literal "orgs", .hole, .literal "repos"] := by decide

@[simp] theorem pieces_orgMembers :
    pieces orgMembers = [.literal "orgs", .hole, .literal "members"] := by decide

@[simp] theorem pieces_orgTeams :
    pieces orgTeams = [.literal "orgs", .hole, .literal "teams"] := by decide

@[simp] theorem pieces_teamMembers : pieces teamMembers =
    [.literal "orgs", .hole, .literal "teams", .hole, .literal "members"] := by decide

@[simp] theorem pieces_orgSecretScanningAlerts : pieces orgSecretScanningAlerts =
    [.literal "orgs", .hole, .literal "secret-scanning", .literal "alerts"] := by decide

@[simp] theorem pieces_repo : pieces repo = [.literal "repos", .hole, .hole] := by decide

@[simp] theorem pieces_repoRulesets :
    pieces repoRulesets = [.literal "repos", .hole, .hole, .literal "rulesets"] := by decide

@[simp] theorem pieces_repoCommits :
    pieces repoCommits = [.literal "repos", .hole, .hole, .literal "commits"] := by decide

@[simp] theorem pieces_repoSecretScanningAlerts : pieces repoSecretScanningAlerts =
    [.literal "repos", .hole, .hole, .literal "secret-scanning", .literal "alerts"] := by decide

@[simp] theorem pieces_branchProtection : pieces branchProtection =
    [.literal "repos", .hole, .hole, .literal "branches", .hole, .literal "protection"] := by
  decide

@[simp] theorem pieces_repoContents : pieces repoContents =
    [.literal "repos", .hole, .hole, .literal "contents", .hole] := by decide

end Pieces

theorem matches_repoContents {owner repo : String} (path : List String) :
    Route.Matches ("repos" :: owner :: repo :: "contents" :: path) .repoContents :=
  ⟨["repos", owner, repo, "contents"], path, rfl, by simp [Piece.Stands]⟩

/-- A path is named by a template that stands for it. -/
theorem matches_routeOf {path : List Char} (h : routeOf path ≠ .unmatched) :
    (routeOf path).Matches (pathSegments path) := by
  unfold routeOf at h ⊢
  dsimp only at h ⊢
  split at h
  · rename_i hlong
    rw [if_pos hlong]
    split at h
    · rename_i owner repo rest hsegments
      rw [← List.take_append_drop maxTrackedSegments (pathSegments path), hsegments]
      exact matches_repoContents _
    · exact absurd rfl h
  · rename_i hshort
    rw [if_neg hshort]
    generalize pathSegments path = segments at *
    split at h
    case h_14 owner repo rest => exact matches_repoContents rest
    case h_15 => exact absurd rfl h
    all_goals simp [Route.Matches, Piece.Stands]

theorem routeOf_of_matches_contents {path : List Char}
    (h : Route.Matches (pathSegments path) .repoContents) : routeOf path = .repoContents := by
  obtain ⟨front, rest, hsegments, hfront⟩ := h
  simp only [pieces_repoContents, List.dropLast, List.forall₂_cons_left_iff,
    List.forall₂_nil_left_iff, Piece.Stands, true_and] at hfront
  obtain ⟨_, _, rfl, ⟨owner, _, ⟨repo, _, ⟨_, _, rfl, rfl, rfl⟩, rfl⟩, rfl⟩, rfl⟩ := hfront
  unfold routeOf
  dsimp only
  rw [hsegments]
  split
  · rfl
  · rfl

theorem routeOf_of_matches {path : List Char} {r : Route} (h : r.Matches (pathSegments path)) :
    routeOf path = r := by
  cases r with
  | unmatched => exact h.elim
  | repoContents => exact routeOf_of_matches_contents h
  | _ =>
    unfold routeOf
    dsimp only
    generalize pathSegments path = segments at *
    -- the other templates have at most six segments, each fixed or any
    rcases segments with _ | ⟨a, _ | ⟨b, _ | ⟨c, _ | ⟨d, _ | ⟨e, _ | ⟨f, _ | ⟨g, rest⟩⟩⟩⟩⟩⟩⟩
    all_goals simp [Route.Matches, Piece.Stands] at h
    all_goals
      simp only [h]
      rfl

/-- A path has the route whose template stands for it, and none other has one that does. -/
theorem routeOf_eq_iff (path : List Char) (r : Route) :
    routeOf path = r ↔ r.Matches (pathSegments path) ∨
      r = .unmatched ∧ ∀ r' : Route, ¬ r'.Matches (pathSegments path) := by
  constructor
  · rintro rfl
    by_cases h : routeOf path = .unmatched
    · refine .inr ⟨h, fun r' hr' => ?_⟩
      rw [routeOf_of_matches hr'] at h
      subst h
      exact hr'
    · exact .inl (matches_routeOf h)
  · rintro (h | ⟨rfl, h⟩)
    · exact routeOf_of_matches h
    · by_contra hne
      exact h _ (matches_routeOf hne)

/-! ## Targets -/

/-- A path from its root on, without a query, a fragment or an authority. -/
structure PlainPath (path : List Char) : Prop where
  root : ∃ rest, path = '/' :: rest ∧ rest.head? ≠ some '/'
  noFragment : '#' ∉ path
  noQuery : '?' ∉ path

/-- A query, a fragment, or nothing. -/
def Tail (suffix : List Char) : Prop :=
  suffix = [] ∨ ∃ c rest, suffix = c :: rest ∧ (c = '?' ∨ c = '#')

theorem takeWhile_ne {c : Char} {text : List Char} (h : c ∉ text) :
    text.takeWhile (· ≠ c) = text :=
  List.takeWhile_eq_self_iff.mpr fun x hx =>
    decide_eq_true fun he : x = c => h (he ▸ hx)

theorem takeWhile_ne_append {c : Char} {text suffix : List Char} (h : c ∉ text) :
    (text ++ suffix).takeWhile (· ≠ c) = text ++ suffix.takeWhile (· ≠ c) := by
  rw [List.takeWhile_append, takeWhile_ne h, if_pos rfl]

theorem without_tail {text suffix : List Char} (hf : '#' ∉ text) (hq : '?' ∉ text)
    (hs : Tail suffix) :
    ((text ++ suffix).takeWhile (· ≠ '#')).takeWhile (· ≠ '?') = text := by
  rw [takeWhile_ne_append hf, takeWhile_ne_append hq]
  rcases hs with rfl | ⟨c, rest, rfl, rfl | rfl⟩
  · simp
  · simp
  · simp

theorem authorityTail_append {authority path : List Char} (ha : '/' ∉ authority)
    (hp : PlainPath path) : authorityTail (authority ++ path) = path := by
  obtain ⟨rest, rfl, -⟩ := hp.root
  induction authority with
  | nil => rfl
  | cons a authority ih =>
    rw [List.mem_cons, not_or] at ha
    rw [authorityTail, List.cons_append, List.dropWhile_cons, if_pos (by simpa using Ne.symm ha.1)]
    exact ih ha.2

theorem PlainPath.not_authority {path : List Char} (hp : PlainPath path) :
    ¬ ['/', '/'] <+: path := by
  obtain ⟨rest, rfl, hr⟩ := hp.root
  rintro ⟨t, ht⟩
  cases ht
  exact hr rfl

/--
The scheme, the authority, the query and the fragment of a target do not matter: the page that
the server links to has the route of the path that the client asks for.
-/
theorem routeOfTarget_eq {scheme authority path suffix : List Char} (hp : PlainPath path)
    (hs : Tail suffix) (hscheme : ∀ c ∈ scheme, c ∉ [':', '#', '?'])
    (hauthority : ∀ c ∈ authority, c ∉ ['/', '#', '?']) :
    routeOfTarget (scheme ++ ([':', '/', '/'] ++ (authority ++ path)) ++ suffix) = routeOf path ∧
      (¬ [':', '/', '/'] <:+: path → routeOfTarget (path ++ suffix) = routeOf path) := by
  have hcolon : ':' ∉ scheme := fun h => hscheme _ h (by simp)
  have hslash : '/' ∉ authority := fun h => hauthority _ h (by simp)
  have hnone : ∀ c, c = '#' ∨ c = '?' →
      c ∉ scheme ++ ([':', '/', '/'] ++ (authority ++ path)) := by
    rintro c hc hm
    simp only [List.mem_append] at hm
    rcases hm with hm | hm | hm | hm
    · exact hscheme c hm (by rcases hc with rfl | rfl <;> simp)
    · rcases hc with rfl | rfl <;> simp at hm
    · exact hauthority c hm (by rcases hc with rfl | rfl <;> simp)
    · rcases hc with rfl | rfl
      · exact hp.noFragment hm
      · exact hp.noQuery hm
  constructor
  · unfold routeOfTarget pathForMatching
    dsimp only
    rw [without_tail (hnone _ (.inl rfl)) (hnone _ (.inr rfl)) hs, splitFirst_append hcolon]
    simp only [authorityTail_append hslash hp]
    exact congrArg routeOf (if_neg hp.not_authority)
  · intro hplain
    unfold routeOfTarget pathForMatching
    dsimp only
    rw [without_tail hp.noFragment hp.noQuery hs, splitFirst_eq_none hplain]
    exact congrArg routeOf (if_neg hp.not_authority)

theorem routeOfTarget_next_page :
    routeOfTarget ("https".toList ++ ([':', '/', '/'] ++ ("api.github.com".toList ++
        "/orgs/mattilsynet/repos".toList)) ++ "?page=2".toList) =
        routeOf "/orgs/mattilsynet/repos".toList ∧
      (¬ [':', '/', '/'] <:+: "/orgs/mattilsynet/repos".toList →
        routeOfTarget ("/orgs/mattilsynet/repos".toList ++ "?page=2".toList) =
          routeOf "/orgs/mattilsynet/repos".toList) :=
  routeOfTarget_eq ⟨⟨"orgs/mattilsynet/repos".toList, rfl, by decide⟩, by decide, by decide⟩
    (.inr ⟨'?', "page=2".toList, rfl, .inl rfl⟩) (by simp) (by simp)

end GhReport.GitHub
