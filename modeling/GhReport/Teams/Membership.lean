import GhReport.Domain.Owners
import GhReport.GitHub.Client

/-! # Teams and their members

Teams are enumerated, and the members of each team are listed. An answer that is
not whole says nothing about absence: it becomes a gap or a degraded roster.
-/

namespace GhReport.Teams

open Domain Event GitHub

/-! ## Sources -/

/-- What rosters are collected with: the client, the check of path segments, lowercase. -/
structure Source where
  client : Client
  sanitizePathSegment : String → Option String
  /-- A checked segment passes the check unchanged. -/
  sanitize_sanitized : ∀ {raw safe}, sanitizePathSegment raw = some safe →
    sanitizePathSegment safe = some safe
  toLowercase : String → String

def defaultPageSize : ℕ := 100

/-- The items of a successful answer, if it is a list. -/
def items : ApiOutcome → Option (List Json)
  | .success _ (some (.array items)) _ => some items
  | _ => none

namespace Source

variable (S : Source)

/-! ## Discovery -/

inductive DiscoveryGap where
  | failed
  | truncated
  | invalid
deriving DecidableEq

/-- A slug that passed the check of path segments. -/
abbrev TeamSlug := { slug : String // S.sanitizePathSegment slug = some slug }

def TeamSlug.parse (raw : String) : Option S.TeamSlug :=
  match h : S.sanitizePathSegment raw with
  | some safe => some ⟨safe, S.sanitize_sanitized h⟩
  | none => none

structure TeamDiscovery where
  slugs : List S.TeamSlug
  gap : Option DiscoveryGap

def TeamDiscovery.authorizesOmissionDetach (d : S.TeamDiscovery) : Bool := d.gap.isNone

def entrySlug (item : Json) : Option S.TeamSlug :=
  ((item.get "slug").bind Json.asStr).bind (TeamSlug.parse S)

def teamsPath : String := "/orgs/" ++ S.client.orgName ++ "/teams?per_page=100"

def discoverOrgTeams (outcome : ApiOutcome) : S.TeamDiscovery :=
  match items outcome with
  | none => ⟨[], some .failed⟩
  | some items =>
    let slugs := items.filterMap S.entrySlug
    let unusableEntries := (items.filter fun item => (S.entrySlug item).isNone).length
    if outcome.isTruncated then ⟨slugs, some .truncated⟩
    else if unusableEntries = 0 then ⟨slugs, none⟩
    else ⟨slugs, some .invalid⟩

/-! ## Members -/

def degradedRoster (canonicalOwner teamSlug : String) (status : TeamRosterStatus) : TeamRoster :=
  ⟨canonicalOwner, teamSlug, status, [], none⟩

def failureStatus (outcome : ApiOutcome) : TeamRosterStatus :=
  match outcome.statusCode with
  | some 404 => .deleted
  | some 403 => .permissionDenied
  | _ => .transientError

structure GhTeamMember where
  login : String
  role : Option String

/-- The login is required; the role may be absent or null. -/
def GhTeamMember.fromValue (item : Json) : Option GhTeamMember :=
  match (item.get "login").bind Json.asStr, item.get "role" with
  | some login, none | some login, some .null => some ⟨login, none⟩
  | some login, some (.string role) => some ⟨login, some role⟩
  | _, _ => none

def usableLogin (login : String) : Option String :=
  if login.toList.all isWhitespace then none else some login

def roleFromWire : Option String → TeamMemberRole
  | some "maintainer" => .maintainer
  | some "member" => .member
  | _ => .unknown

def memberEntry (item : Json) : Option (String × TeamMemberRole) := do
  let member ← GhTeamMember.fromValue item
  let login ← usableLogin member.login
  return (login, roleFromWire member.role)

/-- The members of an answer, if every one of its entries can be read. -/
def membersFromOutcome (outcome : ApiOutcome) : Option (List (String × TeamMemberRole)) :=
  (items outcome).bind fun items => items.mapM memberEntry

def membersPath (teamSlug : String) : String :=
  "/orgs/" ++ S.client.orgName ++ "/teams/" ++ teamSlug ++ "/members?role=all&per_page="
    ++ toString defaultPageSize

def teamMember (member : String × TeamMemberRole) : TeamMember := ⟨member.1, member.2, none⟩

def sortMembers (members : List TeamMember) : List TeamMember :=
  members.insertionSort fun a b => S.toLowercase a.login ≤ S.toLowercase b.login

/-- The roster that an answer of the members endpoint makes. -/
def rosterFromOutcome (canonicalOwner teamSlug now : String) (outcome : ApiOutcome) : TeamRoster :=
  if !outcome.isOk || outcome.isTruncated then
    degradedRoster canonicalOwner teamSlug (failureStatus outcome)
  else match membersFromOutcome outcome with
    | none => degradedRoster canonicalOwner teamSlug .transientError
    | some parsed =>
      ⟨canonicalOwner, teamSlug, .complete, S.sortMembers (parsed.map teamMember), some now⟩

/-- What the process remembers of the members endpoint: its answers so far. -/
structure TeamCache where
  /-- The slugs that were found deleted. -/
  deletedTeams : List String
  answered : List (String × ApiOutcome)

/-- A slug found deleted is not asked for again. -/
def collectOneTeamRoster (cache : TeamCache) (env : RequestEnvironment) (now : String)
    (team : String × String) : TeamRoster × TeamCache :=
  match S.sanitizePathSegment team.2 with
  | none => (degradedRoster team.1 team.2 .transientError, cache)
  | some safeSlug =>
    if cache.deletedTeams.contains safeSlug then (degradedRoster team.1 team.2 .deleted, cache)
    else
      let allOutcome := request S.client env (S.membersPath safeSlug) 1
      let roster := S.rosterFromOutcome team.1 team.2 now allOutcome
      let answered := cache.answered ++ [(safeSlug, allOutcome)]
      if roster.status = .deleted then (roster, ⟨safeSlug :: cache.deletedTeams, answered⟩)
      else (roster, ⟨cache.deletedTeams, answered⟩)

/-- One roster for each team, in their order; `envs` answers the request for each of them. -/
def collectTeamRosters (envs : ℕ → RequestEnvironment) (now : ℕ → String) :
    ℕ → TeamCache → List (String × String) → List TeamRoster × TeamCache
  | _, cache, [] => ([], cache)
  | i, cache, team :: teams =>
    let first := S.collectOneTeamRoster cache (envs i) (now i) team
    let rest := collectTeamRosters envs now (i + 1) first.2 teams
    (first.1 :: rest.1, rest.2)

/-! ## Organisation members -/

def orgMembersPath : String :=
  "/orgs/" ++ S.client.orgName ++ "/members?per_page=" ++ toString defaultPageSize

def orgMemberEntry (item : Json) : Option String :=
  ((item.get "login").bind Json.asStr).bind usableLogin

/-- The lowercase logins of a whole answer. -/
def orgMembersFromOutcome (outcome : ApiOutcome) : Option (List String) :=
  if !outcome.isOk || outcome.isTruncated then none
  else (items outcome).bind fun items =>
    (items.mapM orgMemberEntry).map fun logins => logins.map S.toLowercase

def enrichMember (orgMembers : Option (List String)) (member : TeamMember) : TeamMember :=
  { member with inOrg := orgMembers.map fun set => set.contains (S.toLowercase member.login) }

def enrichTeamRostersWithOrgMembership (orgMembers : Option (List String))
    (rosters : List TeamRoster) : List TeamRoster :=
  rosters.map fun roster =>
    { roster with members := roster.members.map (S.enrichMember orgMembers) }

/-! ## Whole answers -/

variable {S}

/-- The members endpoint of a slug ended naturally, and every entry was read. -/
def MembersListed (S : Source) (env : RequestEnvironment) (teamSlug : String)
    (parsed : List (String × TeamMemberRole)) : Prop :=
  ∃ safeSlug items, S.sanitizePathSegment teamSlug = some safeSlug ∧
    Listed S.client env (S.membersPath safeSlug) items ∧ items.mapM memberEntry = some parsed

/-- The enumeration of the teams ended naturally, with a usable slug in every entry. -/
def TeamsListed (S : Source) (env : RequestEnvironment) (slugs : List S.TeamSlug) : Prop :=
  ∃ items, Listed S.client env S.teamsPath items ∧ items.mapM S.entrySlug = some slugs

/-- The listing of the organisation's members ended naturally, and every entry was read. -/
def OrgMembersListed (S : Source) (env : RequestEnvironment) (logins : List String) : Prop :=
  ∃ items, Listed S.client env S.orgMembersPath items ∧ items.mapM orgMemberEntry = some logins

/-- A slug is remembered as deleted only after its members endpoint answered 404. -/
def TeamCache.Answered (cache : TeamCache) : Prop :=
  ∀ slug ∈ cache.deletedTeams, ∃ outcome, (slug, outcome) ∈ cache.answered ∧
    outcome.statusCode = some 404

/-- An answer that is neither a failure nor truncated listed everything at its path. -/
theorem items_listed {env : RequestEnvironment} {path : String} {found : List Json}
    (htruncated : (request S.client env path 1).isTruncated = false)
    (hitems : items (request S.client env path 1) = some found) :
    Listed S.client env path found := by
  cases houtcome : request S.client env path 1 with
  | failure statusCode error retryable =>
    rw [houtcome] at hitems
    cases hitems
  | success statusCode data truncated =>
    rw [houtcome] at htruncated hitems
    obtain rfl : truncated = false := htruncated
    obtain ⟨listed, rfl, hlisted⟩ := request_listed houtcome
    cases hitems
    exact hlisted

theorem filterMap_of_forall_isSome {α β : Type} {f : α → Option β} {xs : List α}
    (h : (xs.filter fun x => (f x).isNone).length = 0) : xs.mapM f = some (xs.filterMap f) := by
  induction xs with
  | nil => rfl
  | cons x xs ih =>
    cases hx : f x with
    | none => simp [hx] at h
    | some y =>
      have hrest : (xs.filter fun x => (f x).isNone).length = 0 := by
        simpa [hx] using h
      rw [List.mapM_cons, hx, ih hrest, List.filterMap_cons_some hx]
      rfl

theorem teamsListed_of_authorized {env : RequestEnvironment}
    (h : (S.discoverOrgTeams
      (request S.client env S.teamsPath 1)).authorizesOmissionDetach = true) :
    TeamsListed S env (S.discoverOrgTeams (request S.client env S.teamsPath 1)).slugs := by
  unfold discoverOrgTeams at h ⊢
  cases hitems : items (request S.client env S.teamsPath 1) with
  | none =>
    rw [hitems] at h
    cases h
  | some found =>
    rw [hitems] at h
    dsimp only at h ⊢
    split at h
    · cases h
    · next htruncated =>
      rw [if_neg htruncated]
      split at h
      · next hunusable =>
        rw [if_pos hunusable]
        rw [Bool.not_eq_true] at htruncated
        exact ⟨found, items_listed htruncated hitems, filterMap_of_forall_isSome hunusable⟩
      · cases h

theorem orgMembersListed_of_some {env : RequestEnvironment} {set : List String}
    (h : S.orgMembersFromOutcome (request S.client env S.orgMembersPath 1) = some set) :
    ∃ logins, OrgMembersListed S env logins ∧ set = logins.map S.toLowercase := by
  unfold orgMembersFromOutcome at h
  split at h
  · cases h
  · next hwhole =>
    simp only [Bool.or_eq_true, not_or, Bool.not_eq_true] at hwhole
    obtain ⟨found, hitems, h⟩ := Option.bind_eq_some_iff.mp h
    obtain ⟨logins, hlogins, rfl⟩ := Option.map_eq_some_iff.mp h
    exact ⟨logins, ⟨found, items_listed hwhole.2 hitems, hlogins⟩, rfl⟩

/-- How the roster of a slug came about, from requests answered by `envs`. -/
structure Collected (S : Source) (envs : ℕ → RequestEnvironment)
    (answered : List (String × ApiOutcome)) (slug : String) (roster : TeamRoster) : Prop where
  teamSlug : roster.teamSlug = slug
  deleted : roster.status = .deleted → ∃ safeSlug outcome,
    S.sanitizePathSegment slug = some safeSlug ∧ (safeSlug, outcome) ∈ answered ∧
      outcome.statusCode = some 404
  complete : roster.status = .complete → ∃ i parsed, MembersListed S (envs i) slug parsed ∧
    roster.members = S.sortMembers (parsed.map teamMember)

theorem failureStatus_eq_deleted {outcome : ApiOutcome} (h : failureStatus outcome = .deleted) :
    outcome.statusCode = some 404 := by
  unfold failureStatus at h
  split at h
  · assumption
  · cases h
  · cases h

theorem failureStatus_ne_complete (outcome : ApiOutcome) : failureStatus outcome ≠ .complete := by
  unfold failureStatus
  split <;> nofun

theorem Collected.mono {envs : ℕ → RequestEnvironment}
    {answered answered' : List (String × ApiOutcome)}
    {slug : String} {roster : TeamRoster} (h : Collected S envs answered slug roster)
    (hsub : ∀ entry ∈ answered, entry ∈ answered') : Collected S envs answered' slug roster := by
  refine ⟨h.teamSlug, fun hdeleted => ?_, h.complete⟩
  obtain ⟨safeSlug, outcome, hsafe, hmem, hstatus⟩ := h.deleted hdeleted
  exact ⟨safeSlug, outcome, hsafe, hsub _ hmem, hstatus⟩

theorem rosterFromOutcome_collected {envs : ℕ → RequestEnvironment} {i : ℕ}
    {team : String × String} {safeSlug : String} {answered : List (String × ApiOutcome)}
    (now : String) (hsafe : S.sanitizePathSegment team.2 = some safeSlug)
    (hanswered : (safeSlug, request S.client (envs i) (S.membersPath safeSlug) 1) ∈ answered) :
    Collected S envs answered team.2 (S.rosterFromOutcome team.1 team.2 now
      (request S.client (envs i) (S.membersPath safeSlug) 1)) := by
  unfold rosterFromOutcome
  split
  · constructor
    · rfl
    · exact fun h => ⟨safeSlug, _, hsafe, hanswered, failureStatus_eq_deleted h⟩
    · exact fun h => absurd h (failureStatus_ne_complete _)
  · next hwhole =>
    simp only [Bool.or_eq_true, not_or, Bool.not_eq_true] at hwhole
    split
    · exact ⟨rfl, nofun, nofun⟩
    · next parsed hparsed =>
      obtain ⟨found, hitems, hentries⟩ := Option.bind_eq_some_iff.mp hparsed
      refine ⟨rfl, nofun, fun _ => ⟨i, parsed, ?_, rfl⟩⟩
      exact ⟨safeSlug, found, hsafe, items_listed hwhole.2 hitems, hentries⟩

theorem collectOneTeamRoster_collected {cache : TeamCache} (h : cache.Answered)
    (envs : ℕ → RequestEnvironment) (i : ℕ) (now : String) (team : String × String) :
    let collected := S.collectOneTeamRoster cache (envs i) now team
    Collected S envs collected.2.answered team.2 collected.1 ∧ collected.2.Answered ∧
      ∀ entry ∈ cache.answered, entry ∈ collected.2.answered := by
  simp only [collectOneTeamRoster]
  cases hsafe : S.sanitizePathSegment team.2 with
  | none => exact ⟨⟨rfl, nofun, nofun⟩, h, fun _ => id⟩
  | some safeSlug =>
    dsimp only
    have hasked : (safeSlug, request S.client (envs i) (S.membersPath safeSlug) 1) ∈
        cache.answered ++ [(safeSlug, request S.client (envs i) (S.membersPath safeSlug) 1)] :=
      List.mem_append_right _ (List.mem_singleton.mpr rfl)
    split
    · next hknown =>
      obtain ⟨outcome, hmem, hstatus⟩ := h safeSlug (List.contains_iff_mem.mp hknown)
      exact ⟨⟨rfl, fun _ => ⟨safeSlug, outcome, hsafe, hmem, hstatus⟩, nofun⟩, h, fun _ => id⟩
    · split
      · next hdeleted =>
        have hcollected := rosterFromOutcome_collected now hsafe hasked
        refine ⟨hcollected, ?_, fun _ => List.mem_append_left _⟩
        intro slug hslug
        rcases List.mem_cons.mp hslug with rfl | hslug
        · obtain ⟨safeSlug', outcome, hsafe', hmem, hstatus⟩ := hcollected.deleted hdeleted
          rw [hsafe] at hsafe'
          cases hsafe'
          exact ⟨outcome, hmem, hstatus⟩
        · obtain ⟨outcome, hmem, hstatus⟩ := h slug hslug
          exact ⟨outcome, List.mem_append_left _ hmem, hstatus⟩
      · refine ⟨rosterFromOutcome_collected now hsafe hasked, ?_, fun _ => List.mem_append_left _⟩
        intro slug hslug
        obtain ⟨outcome, hmem, hstatus⟩ := h slug hslug
        exact ⟨outcome, List.mem_append_left _ hmem, hstatus⟩

/-- Every roster of a tick is of one of its teams, and came about as its status says. -/
theorem collectTeamRosters_collected (envs : ℕ → RequestEnvironment) (now : ℕ → String)
    (teams : List (String × String)) {i : ℕ} {cache : TeamCache} (h : cache.Answered) :
    let collected := S.collectTeamRosters envs now i cache teams
    (∀ roster ∈ collected.1, ∃ team ∈ teams,
        Collected S envs collected.2.answered team.2 roster) ∧
      collected.2.Answered ∧ ∀ entry ∈ cache.answered, entry ∈ collected.2.answered := by
  induction teams generalizing i cache with
  | nil => exact ⟨nofun, h, fun _ => id⟩
  | cons team teams ih =>
    obtain ⟨hfirst, hcache, hmono⟩ := collectOneTeamRoster_collected h envs i (now i) team
    obtain ⟨hrest, hcache', hmono'⟩ := ih (i := i + 1) hcache
    simp only [collectTeamRosters]
    refine ⟨?_, hcache', fun entry hentry => hmono' entry (hmono entry hentry)⟩
    intro roster hroster
    rcases List.mem_cons.mp hroster with rfl | hroster
    · exact ⟨team, List.mem_cons_self .., hfirst.mono hmono'⟩
    · obtain ⟨team', hteam', hcollected⟩ := hrest roster hroster
      exact ⟨team', List.mem_cons_of_mem _ hteam', hcollected⟩

end Source

end GhReport.Teams
