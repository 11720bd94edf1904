import GhReport.Teams.Absence

/-! # Teams that come back

The process asks the members endpoint of a slug until it answers 404 once. While
it has not, a tick that ends without an error leaves the roster of every listed
team as the endpoint answered it.
-/

namespace GhReport.Teams

open Domain Event Projection App GitHub EvidenceProjection Source Upsert

variable {S : Source}

/-! ## Collecting a listed team -/

/-- The members endpoint of the slug answers with a whole list, whenever it is asked. -/
def AnswersMembers (S : Source) (envs : ℕ → RequestEnvironment) (slug : String)
    (parsed : List (String × TeamMemberRole)) : Prop :=
  ∀ i, ∃ status items,
    request S.client (envs i) (S.membersPath slug) 1 = .success status (some (.array items)) false ∧
      items.mapM memberEntry = some parsed

/-- The roster is whole, and has these members. -/
structure Whole (S : Source) (parsed : List (String × TeamMemberRole)) (roster : TeamRoster) :
    Prop where
  complete : roster.status = .complete
  members : roster.members.map (fun m => (m.login, m.role)) =
    (S.sortMembers (parsed.map teamMember)).map fun m => (m.login, m.role)

section Collecting

variable {envs : ℕ → RequestEnvironment} {slug : String} {parsed : List (String × TeamMemberRole)}

theorem rosterFromOutcome_whole (h : AnswersMembers S envs slug parsed) (i : ℕ)
    (canonicalOwner teamSlug now : String) :
    Whole S parsed (S.rosterFromOutcome canonicalOwner teamSlug now
      (request S.client (envs i) (S.membersPath slug) 1)) := by
  obtain ⟨status, items, houtcome, hparsed⟩ := h i
  rw [houtcome]
  have hmembers : membersFromOutcome (.success status (some (.array items)) false) = some parsed :=
    hparsed
  simp only [rosterFromOutcome, ApiOutcome.isOk, ApiOutcome.isTruncated, Bool.not_true,
    Bool.or_self, Bool.false_eq_true, if_false, hmembers]
  exact ⟨rfl, rfl⟩

/-- A slug that is answered whole is never remembered as deleted, and its roster is whole. -/
theorem collectOneTeamRoster_whole (h : AnswersMembers S envs slug parsed)
    (hsafe : S.sanitizePathSegment slug = some slug) {cache : TeamCache}
    (hcache : slug ∉ cache.deletedTeams) (i : ℕ) (now : String) (team : String × String) :
    let collected := S.collectOneTeamRoster cache (envs i) now team
    collected.1.teamSlug = team.2 ∧ (team.2 = slug → Whole S parsed collected.1) ∧
      slug ∉ collected.2.deletedTeams := by
  simp only [collectOneTeamRoster]
  cases hteam : S.sanitizePathSegment team.2 with
  | none =>
    refine ⟨rfl, ?_, hcache⟩
    rintro rfl
    rw [hsafe] at hteam
    cases hteam
  | some safeSlug =>
    dsimp only
    split
    · next hknown =>
      refine ⟨rfl, ?_, hcache⟩
      rintro rfl
      rw [hsafe] at hteam
      cases hteam
      exact absurd (List.contains_iff_mem.mp hknown) hcache
    · have hslug : ∀ outcome,
          (S.rosterFromOutcome team.1 team.2 now outcome).teamSlug = team.2 := by
        intro outcome
        unfold rosterFromOutcome
        split
        · rfl
        · split <;> rfl
      have hwhole : safeSlug = slug → Whole S parsed (S.rosterFromOutcome team.1 team.2 now
          (request S.client (envs i) (S.membersPath safeSlug) 1)) := by
        rintro rfl
        exact rosterFromOutcome_whole h i _ _ _
      have hsame : team.2 = slug → safeSlug = slug := by
        rintro rfl
        rw [hsafe] at hteam
        exact (Option.some.inj hteam).symm
      split
      · next hdeleted =>
        refine ⟨hslug _, fun heq => hwhole (hsame heq), ?_⟩
        rw [List.mem_cons, not_or]
        refine ⟨?_, hcache⟩
        intro heq
        rw [(hwhole heq.symm).complete] at hdeleted
        cases hdeleted
      · exact ⟨hslug _, fun heq => hwhole (hsame heq), hcache⟩

theorem collectTeamRosters_whole (h : AnswersMembers S envs slug parsed)
    (hsafe : S.sanitizePathSegment slug = some slug) (now : ℕ → String)
    (teams : List (String × String)) {i : ℕ} {cache : TeamCache}
    (hcache : slug ∉ cache.deletedTeams) :
    let rosters := (S.collectTeamRosters envs now i cache teams).1
    rosters.map TeamRoster.teamSlug = teams.map Prod.snd ∧
      ∀ roster ∈ rosters, roster.teamSlug = slug → Whole S parsed roster := by
  induction teams generalizing i cache with
  | nil => exact ⟨rfl, nofun⟩
  | cons team teams ih =>
    obtain ⟨hslug, hwhole, hcache'⟩ := collectOneTeamRoster_whole h hsafe hcache i (now i) team
    obtain ⟨hslugs, hrest⟩ := ih (i := i + 1) hcache'
    simp only [collectTeamRosters]
    constructor
    · rw [List.map_cons, List.map_cons, hslug, hslugs]
    · intro roster hroster heq
      rcases List.mem_cons.mp hroster with rfl | hroster
      · exact hwhole (hslug.symm.trans heq)
      · exact hrest roster hroster heq

end Collecting

/-! ## Observed teams -/

/-- A team that the tick observes: listed in one spelling, and answered whole. -/
structure Observes (tick : Tick S) (slug : S.TeamSlug) (parsed : List (String × TeamMemberRole)) :
    Prop where
  listed : slug ∈ tick.discovery.slugs
  codeowners : ∀ pair ∈ tick.codeownersTeams,
    eqIgnoreAsciiCase pair.2.toList slug.1.toList = true → pair.2 = slug.1
  spelling : ∀ other ∈ tick.discovery.slugs,
    eqIgnoreAsciiCase other.1.toList slug.1.toList = true → other.1 = slug.1
  answers : AnswersMembers S tick.answers.members slug.1 parsed

namespace Observes

variable {tick : Tick S} {slug : S.TeamSlug} {parsed : List (String × TeamMemberRole)}

theorem exists_pair (h : Observes tick slug parsed) :
    ∃ pair ∈ tick.teamPairs, pair.2 = slug.1 := by
  obtain ⟨pair, hpair, hspelling⟩ := Tick.exists_pair_of_mem h.listed
  refine ⟨pair, hpair, ?_⟩
  have horigin : ∀ (slugs : List String) (pairs : List (String × String)),
      pair ∈ slugs.foldl (addTeam S.client.orgName) pairs → pair ∈ pairs ∨ pair.2 ∈ slugs := by
    intro slugs
    induction slugs with
    | nil => exact fun _ => .inl
    | cons first slugs ih =>
      intro pairs hmem
      rcases ih _ hmem with hmem | hmem
      · unfold addTeam at hmem
        split at hmem
        · exact .inl hmem
        · rcases List.mem_append.mp hmem with hmem | hmem
          · exact .inl hmem
          · obtain rfl := List.mem_singleton.mp hmem
            exact .inr (List.mem_cons_self ..)
      · exact .inr (List.mem_cons_of_mem _ hmem)
  rcases horigin _ _ hpair with hmem | hmem
  · exact h.codeowners pair hmem hspelling
  · obtain ⟨other, hother, hname⟩ := List.mem_map.mp hmem
    rw [← hname] at hspelling ⊢
    exact h.spelling other hother hspelling

/-- The tick writes a roster of the team, and every roster of it is whole. -/
theorem rosters (h : Observes tick slug parsed) (hcache : slug.1 ∉ tick.cache.deletedTeams) :
    (∃ roster ∈ tick.rosters, roster.teamSlug = slug.1) ∧
      ∀ roster ∈ tick.rosters, roster.teamSlug = slug.1 → Whole S parsed roster := by
  obtain ⟨hslugs, hwhole⟩ := collectTeamRosters_whole h.answers slug.2 tick.answers.now
    tick.teamPairs (i := 0) hcache
  constructor
  · obtain ⟨pair, hpair, hname⟩ := h.exists_pair
    have hmem : slug.1 ∈ tick.collected.1.map TeamRoster.teamSlug := by
      rw [Tick.collected, hslugs, ← hname]
      exact List.mem_map_of_mem hpair
    obtain ⟨collected, hcollected, hname⟩ := List.mem_map.mp hmem
    exact ⟨_, List.mem_map_of_mem hcollected, hname⟩
  · intro roster hroster heq
    obtain ⟨collected, hcollected, rfl⟩ := List.mem_map.mp hroster
    obtain ⟨hcomplete, hmembers⟩ := hwhole collected hcollected heq
    refine ⟨hcomplete, ?_⟩
    rw [← hmembers, List.map_map]
    rfl

end Observes

/-! ## The end of a tick -/

/-- The projection holds the team whole, under its key, and no ghost of it. -/
def HoldsWhole (S : Source) (slug : String) (parsed : List (String × TeamMemberRole))
    (p : EvidenceProjection) : Prop :=
  ∃ key roster, teamDomainKey S.client.orgName slug = .ok key ∧
    p.teamSlot key = ⟨some roster, none⟩ ∧ Whole S parsed roster

/-- A write of another team, or of no team, leaves the team as it is. -/
theorem HoldsWhole.unmoved {slug : String} {parsed : List (String × TeamMemberRole)}
    {p p' : EvidenceProjection} (h : HoldsWhole S slug parsed p)
    (hsame : ∀ key, teamDomainKey S.client.orgName slug = .ok key →
      p'.teamSlot key = p.teamSlot key) :
    HoldsWhole S slug parsed p' := by
  obtain ⟨key, roster, hkey, hslot, hwhole⟩ := h
  exact ⟨key, roster, hkey, (hsame key hkey).trans hslot, hwhole⟩

/-- How far the tick is: once a roster of the team is written, the projection holds it whole. -/
inductive Progress (tick : Tick S) (slug : S.TeamSlug) (parsed : List (String × TeamMemberRole))
    (s : Refresh S) : Prop where
  | recording (written rosters : List TeamRoster) (attempt : ℕ)
      (hphase : s.phase = .recording tick rosters attempt)
      (hsplit : tick.rosters = written ++ rosters)
      (hwritten : (∃ roster ∈ written, roster.teamSlug = slug.1) →
        HoldsWhole S slug.1 parsed s.app.projectionState.value)
  | omitting (stale : List (String × TeamRoster)) (attempt : ℕ)
      (hphase : s.phase = .omitting tick stale attempt)
      (hholds : HoldsWhole S slug.1 parsed s.app.projectionState.value)
  | idle (hphase : s.phase = .idle)
      (hholds : HoldsWhole S slug.1 parsed s.app.projectionState.value)

/-- The step starts no tick, and does not end one with an error: a failed write is tried again. -/
def Succeeds (R : Runtime) (s : Refresh S) : RefreshInput → Prop
  | .start _ => False
  | .advance fates => ∀ e, ((machine R S).step s (.advance fates)).1 = some (.error e) →
    ((machine R S).step s (.advance fates)).2.phase ≠ .idle
  | .other .. => True

section Step

variable {R : Runtime} {tick : Tick S} {slug : S.TeamSlug}
  {parsed : List (String × TeamMemberRole)} {s : Refresh S}

theorem teamSlot_other (write : OtherWrite) (fates : Fates) (app : AppState) (key : String) :
    ((App.machine R).step app (write.op, fates)).2.projectionState.value.teamSlot key =
      app.projectionState.value.teamSlot key := by
  rcases teamMoves_step (R := R) app (write.op, fates) key with ⟨-, hmoves⟩ | ⟨-, hsame⟩
  · obtain ⟨op, hop⟩ := write
    cases op with
    | recordTeam | detachTeam => exact hop.elim
    | recordRepo | removeRepo | markRepoDeleted | recordOrg => exact hmoves
  · rw [hsame]

/-- A write of the tick moves the team slots as its roster says, or is tried again. -/
theorem moves_of_succeeds {fates : Fates} {detach : Bool} {roster : TeamRoster}
    (hwrite : s.teamWrite = some (tick, detach, roster)) (h : Succeeds R s (.advance fates)) :
    let s' := ((machine R S).step s (.advance fates)).2
    (s'.phase = s.afterAttempt (.ok ()) ∧ ∀ key, (tick.writeTeamEvent detach roster).TeamMoves key
      (s.app.projectionState.value.teamSlot key) (s'.app.projectionState.value.teamSlot key)) ∨
    ∃ e, s'.phase = s.afterAttempt (.error e) ∧ s'.phase ≠ .idle ∧
      s'.app.projectionState.value = s.app.projectionState.value := by
  have hmoves := teamMoves_step (R := R) s.app (tick.writeTeamEvent detach roster, fates)
  simp only [Succeeds, machine, hwrite] at h ⊢
  generalize (App.machine R).step s.app (tick.writeTeamEvent detach roster, fates) = w at h hmoves ⊢
  obtain ⟨answer, app⟩ := w
  cases answer with
  | error e =>
    right
    refine ⟨e, rfl, h e rfl, ?_⟩
    rcases hmoves "" with ⟨hok, -⟩ | ⟨-, hsame⟩
    · cases hok
    · exact hsame
  | ok u =>
    left
    refine ⟨rfl, fun key => ?_⟩
    rcases hmoves key with ⟨-, hmove⟩ | ⟨hne, -⟩
    · exact hmove
    · exact absurd rfl hne

theorem attempted_eq_again {attempt : ℕ} {e : Stop PersistenceError}
    (h : attempted attempt (.error e) ≠ .failed) : attempted attempt (.error e) = .again := by
  rcases attempted_cases attempt (.error e) with ⟨-, hok⟩ | ⟨hagain | hfailed, -⟩
  · cases hok
  · exact hagain
  · exact absurd hfailed h

theorem afterAttempt_again_recording {rosters : List TeamRoster} {attempt : ℕ}
    {e : Stop PersistenceError}
    (hphase : s.phase = .recording tick rosters attempt) (h : s.afterAttempt (.error e) ≠ .idle) :
    ∃ attempt', s.afterAttempt (.error e) = .recording tick rosters attempt' := by
  cases rosters with
  | nil => exact ⟨attempt, by simp only [Refresh.afterAttempt, hphase]⟩
  | cons roster rest =>
    simp only [Refresh.afterAttempt, hphase] at h ⊢
    rw [attempted_eq_again fun hfailed => h (by rw [hfailed])]
    exact ⟨attempt + 1, rfl⟩

theorem afterAttempt_again_omitting {stale : List (String × TeamRoster)} {attempt : ℕ}
    {e : Stop PersistenceError} (hphase : s.phase = .omitting tick stale attempt)
    (h : s.afterAttempt (.error e) ≠ .idle) :
    ∃ attempt', s.afterAttempt (.error e) = .omitting tick stale attempt' := by
  cases stale with
  | nil => exact ⟨attempt, by simp only [Refresh.afterAttempt, hphase]⟩
  | cons entry rest =>
    simp only [Refresh.afterAttempt, hphase] at h ⊢
    rw [attempted_eq_again fun hfailed => h (by rw [hfailed])]
    exact ⟨attempt + 1, rfl⟩

/-- Writing a roster of the team makes the projection hold it whole; another one changes nothing. -/
theorem holdsWhole_of_recorded {roster : TeamRoster}
    (hwhole : roster.teamSlug = slug.1 → Whole S parsed roster) {p p' : EvidenceProjection}
    (hmoves : ∀ key, (tick.writeTeamEvent (roster.status = .deleted) roster).TeamMoves key
      (p.teamSlot key) (p'.teamSlot key))
    (h : roster.teamSlug = slug.1 ∨ HoldsWhole S slug.1 parsed p) :
    HoldsWhole S slug.1 parsed p' := by
  by_cases hteam : roster.teamSlug = slug.1
  · obtain ⟨hcomplete, hmembers⟩ := hwhole hteam
    have hrecord : (roster.status = .deleted) = False := by simp [hcomplete]
    simp only [hrecord, decide_false, Tick.writeTeamEvent, Bool.false_eq_true, if_false] at hmoves
    obtain ⟨event, hcarries, hslot⟩ := hmoves ""
    obtain ⟨event', hcarries', hslot'⟩ := hmoves event.key
    have hkey : event'.key = event.key := Except.ok.inj (hcarries'.key.symm.trans hcarries.key)
    rw [if_pos hkey] at hslot'
    have hdone : rosterComplete event'.toDomain = true := by
      simp [rosterComplete, hcarries'.status, hcomplete]
    rw [keep_of_complete _ hdone] at hslot'
    refine ⟨event.key, event'.toDomain, hteam ▸ hcarries.key, hslot', ?_, ?_⟩
    · rw [hcarries'.status, hcomplete]
    · rw [hcarries'.members, hmembers]
  · refine (h.resolve_left hteam).unmoved fun key hkey => ?_
    have hother : ∀ event : TeamStateCaptured,
        teamDomainKey S.client.orgName roster.teamSlug = .ok event.key → event.key ≠ key := by
      rintro event hevent rfl
      exact hteam (teamDomainKey_injective hevent hkey)
    have hmove := hmoves key
    unfold Tick.writeTeamEvent at hmove
    split at hmove
    · obtain ⟨event, hcarries, hslot⟩ := hmove
      rw [hslot, if_neg (hother event hcarries.key)]
    · obtain ⟨event, hcarries, hslot⟩ := hmove
      rw [hslot, if_neg (hother event hcarries.key)]

theorem progress_step (s : Refresh S) (i : RefreshInput) (hobserves : Observes tick slug parsed)
    (hcache : slug.1 ∉ tick.cache.deletedTeams) (hsound : Sound s)
    (h : Progress tick slug parsed s) (hi : Succeeds R s i) :
    Progress tick slug parsed ((machine R S).step s i).2 := by
  obtain ⟨⟨first, hfirst, hfirstSlug⟩, hwhole⟩ := hobserves.rosters hcache
  cases i with
  | start answers => exact hi.elim
  | other write fates =>
    have hsame := fun key (_ : teamDomainKey S.client.orgName slug.1 = .ok key) =>
      teamSlot_other (R := R) write fates s.app key
    cases h with
    | recording written rosters attempt hphase hsplit hwritten =>
      exact .recording written rosters attempt hphase hsplit fun hex => (hwritten hex).unmoved hsame
    | omitting stale attempt hphase hholds =>
      exact .omitting stale attempt hphase (hholds.unmoved hsame)
    | idle hphase hholds => exact .idle hphase (hholds.unmoved hsame)
  | advance fates =>
    cases h with
    | recording written rosters attempt hphase hsplit hwritten =>
      cases rosters with
      | nil =>
        have hholds := hwritten ⟨first, by simpa [hsplit] using hfirst, hfirstSlug⟩
        have hnone : s.teamWrite = none := by simp only [Refresh.teamWrite, hphase]
        simp only [machine, hnone, Refresh.finish, hphase]
        split
        · exact .idle rfl hholds
        · exact .omitting _ 1 rfl hholds
      | cons roster rest =>
        have hmem : roster ∈ tick.rosters := by simp [hsplit]
        have hwrite : s.teamWrite = some (tick, decide (roster.status = .deleted), roster) := by
          simp only [Refresh.teamWrite, hphase]
        rcases moves_of_succeeds hwrite hi with ⟨hafter, hmoves⟩ | ⟨e, hafter, hbusy, hsame⟩
        · refine .recording (written ++ [roster]) rest 1 ?_ ?_ ?_
          · rw [hafter]
            simp only [Refresh.afterAttempt, hphase, attempted]
          · rw [hsplit, List.append_assoc, List.singleton_append]
          · rintro ⟨other, hother, hname⟩
            apply holdsWhole_of_recorded (hwhole roster hmem) hmoves
            rcases List.mem_append.mp hother with hother | hother
            · exact .inr (hwritten ⟨other, hother, hname⟩)
            · obtain rfl := List.mem_singleton.mp hother
              exact .inl hname
        · rw [hafter] at hbusy
          obtain ⟨attempt', hagain⟩ := afterAttempt_again_recording hphase hbusy
          refine .recording written (roster :: rest) attempt' (hafter.trans hagain) hsplit ?_
          rw [hsame]
          exact hwritten
    | omitting stale attempt hphase hholds =>
      cases stale with
      | nil =>
        have hnone : s.teamWrite = none := by simp only [Refresh.teamWrite, hphase]
        simp only [machine, hnone, Refresh.finish, hphase]
        exact .idle rfl hholds
      | cons entry rest =>
        have hwrite : s.teamWrite = some (tick, true, entry.2) := by
          simp only [Refresh.teamWrite, hphase]
        rcases moves_of_succeeds hwrite hi with ⟨hafter, hmoves⟩ | ⟨e, hafter, hbusy, hsame⟩
        · refine .omitting rest 1 ?_ (hholds.unmoved fun key hkey => ?_)
          · rw [hafter]
            simp only [Refresh.afterAttempt, hphase, attempted]
          · obtain ⟨hcurrent, hown⟩ :=
              (hsound.omitting _ _ _ hphase).2 entry (List.mem_cons_self ..)
            obtain ⟨event, hcarries, hslot⟩ := hmoves key
            obtain ⟨pair, hpair, hname⟩ := hobserves.exists_pair
            have hother : event.key ≠ key := by
              rintro rfl
              obtain hsame : event.key = entry.1 := Except.ok.inj (hcarries.key.symm.trans hown)
              exact hcurrent (Tick.mem_currentKeys.mpr ⟨pair, hpair, by rw [hname, hkey, hsame]⟩)
            rw [hslot, if_neg hother]
        · rw [hafter] at hbusy
          obtain ⟨attempt', hagain⟩ := afterAttempt_again_omitting hphase hbusy
          refine .omitting (entry :: rest) attempt' (hafter.trans hagain) ?_
          rw [hsame]
          exact hholds
    | idle hphase hholds =>
      have hnone : s.teamWrite = none := by simp only [Refresh.teamWrite, hphase]
      simp only [machine, hnone, Refresh.finish, hphase]
      exact .idle rfl hholds

end Step

/--
A team that is listed in one spelling, and whose members endpoint answers whole and has never
answered 404, is held as it was answered after every tick that ends without a failed write.
-/
theorem listed_team_observed (R : Runtime) (S : Source) {app : AppState}
    (hkeyed : TeamsKeyed S.client.orgName app.projectionState.value) (is js : List RefreshInput)
    (answers : TickAnswers) {slug : S.TeamSlug} {parsed : List (String × TeamMemberRole)} :
    let before := (machine R S).after ⟨app, ⟨[], []⟩, .idle⟩ is
    let started := ((machine R S).step before (.start answers)).2
    let tick : Tick S := ⟨answers, before.evidenceRepos, before.cache⟩
    started.phase = .recording tick tick.rosters 1 →
    Observes tick slug parsed →
    (∀ outcome, (slug.1, outcome) ∈ before.cache.answered → outcome.statusCode ≠ some 404) →
    (machine R S).Along (Succeeds R) started js →
    ((machine R S).after started js).phase = .idle →
    HoldsWhole S slug.1 parsed ((machine R S).after started js).app.projectionState.value := by
  intro before started tick hphase hobserves hanswered hsucceeds hend
  have hsound : Sound before := Machine.invariant sound_step (sound_init app hkeyed) is
  have hcache : slug.1 ∉ tick.cache.deletedTeams := by
    intro hmem
    obtain ⟨outcome, hasked, hstatus⟩ := hsound.cache slug.1 hmem
    exact hanswered outcome hasked hstatus
  have hinit : Sound started ∧ Progress tick slug parsed started :=
    ⟨sound_step before _ hsound, .recording [] tick.rosters 1 hphase rfl nofun⟩
  have hrun : Sound ((machine R S).after started js) ∧
      Progress tick slug parsed ((machine R S).after started js) :=
    Machine.invariant_along (I := fun s => Sound s ∧ Progress tick slug parsed s)
      (fun s i hs hi => ⟨sound_step s i hs.1,
      progress_step s i hobserves hcache hs.1 hs.2 hi⟩) hinit hsucceeds
  cases hrun.2 with
  | recording written rosters attempt hbusy _ _ =>
    rw [hend] at hbusy
    cases hbusy
  | omitting stale attempt hbusy _ =>
    rw [hend] at hbusy
    cases hbusy
  | idle _ hholds => exact hholds

/-! ## Runs -/

section Runs

/-- The steps of a run that start no tick, none of them answered with an error. -/
def unfailing : RefreshInput × RefreshAnswer → Bool
  | (.start _, _) => false
  | (_, some (.error _)) => false
  | _ => true

theorem along_succeeds_of_unfailing {R : Runtime} {s : Refresh S} {is : List RefreshInput}
    (h : ((machine R S).trace s is).all unfailing = true) :
    (machine R S).Along (Succeeds R) s is := by
  induction is generalizing s with
  | nil => trivial
  | cons i is ih =>
    simp only [Machine.trace, List.all_cons, Bool.and_eq_true] at h
    obtain ⟨hi, his⟩ := h
    refine ⟨?_, ih his⟩
    cases i with
    | start answers => cases hi
    | other write fates => trivial
    | advance fates =>
      intro e herror
      rw [herror] at hi
      cases hi

/-- The members of an answer that is whole. -/
def wholeMembers : ApiOutcome → Option (List (String × TeamMemberRole))
  | .success _ (some (.array items)) false => items.mapM memberEntry
  | _ => none

theorem eq_success_of_wholeMembers {outcome : ApiOutcome} {parsed : List (String × TeamMemberRole)}
    (h : wholeMembers outcome = some parsed) :
    ∃ status items, outcome = .success status (some (.array items)) false ∧
      items.mapM memberEntry = some parsed := by
  unfold wholeMembers at h
  split at h
  · exact ⟨_, _, rfl, h⟩
  · cases h

theorem sampleAnswer_members :
    AnswersMembers sampleSource (fun _ => sampleAnswer 200 "members") "Team"
      [("Ada", .member)] := by
  have hanswer : wholeMembers (request sampleSource.client (sampleAnswer 200 "members")
      (sampleSource.membersPath "Team") 1) = some [("Ada", .member)] := by
    decide +kernel
  exact fun _ => eq_success_of_wholeMembers hanswer

/-- The three steps of a tick with one team, its fiber found as given. -/
def sampleAdvances (fiber : Store.FiberStatus) : List RefreshInput :=
  [sampleAdvance fiber, sampleAdvance .undefined, sampleAdvance .undefined]

/-- A tick that finds the team deleted. -/
def sampleDeleted : List RefreshInput := sampleTick 404 :: sampleAdvances .undefined

def ghostSlugs (s : Refresh sampleSource) : List String :=
  s.app.projectionState.value.teamGhostRosters.toList.map fun entry => entry.2.teamSlug

theorem eq_idle_of_matches {phase : TickPhase sampleSource} (h : (phase matches .idle) = true) :
    phase = .idle := by
  cases phase with
  | idle => rfl
  | recording | omitting => cases h

/-- A team that exists again is not asked for again: it stays a ghost. -/
theorem recreated_team_not_observed :
    let started := sampleRefresh (sampleDeleted ++ [sampleTick 200])
    let s := (machine sampleRuntime sampleSource).after started (sampleAdvances .detached)
    AnswersMembers sampleSource (sampleAnswers 200).members "Team" [("Ada", .member)] ∧
    nextTeamWrite started = some (true, "Team", ["Team"]) ∧
    (machine sampleRuntime sampleSource).Along (Succeeds sampleRuntime) started
      (sampleAdvances .detached) ∧
    (s.phase matches .idle) = true ∧ completeSlugs s = [] ∧ ghostSlugs s = ["Team"] := by
  refine ⟨sampleAnswer_members, ?_, ?_, ?_, ?_, ?_⟩
  · decide +kernel
  · apply along_succeeds_of_unfailing
    decide +kernel
  · decide +kernel
  · decide +kernel
  · decide +kernel

def sampleSlug : sampleSource.TeamSlug := ⟨"Team", rfl⟩

theorem sampleSlug_observed :
    Observes ⟨sampleAnswers 200, (sampleRefresh []).evidenceRepos, ⟨[], []⟩⟩ sampleSlug
      [("Ada", .member)] := by
  constructor
  · decide +kernel
  · decide +kernel
  · decide +kernel
  · exact sampleAnswer_members

/-- The first tick of a process holds the team that it lists. -/
theorem listed_team_observed_first :
    HoldsWhole sampleSource "Team" [("Ada", .member)]
      (sampleRefresh (sampleTick 200 :: sampleAdvances .undefined)).app.projectionState.value := by
  have hkeyed : TeamsKeyed "org" AppState.empty.projectionState.value := teamsKeyed_default _
  refine listed_team_observed sampleRuntime sampleSource hkeyed [] (sampleAdvances .undefined)
    (sampleAnswers 200) rfl sampleSlug_observed nofun ?_ ?_
  · apply along_succeeds_of_unfailing
    decide +kernel
  · apply eq_idle_of_matches
    decide +kernel

end Runs

end GhReport.Teams
