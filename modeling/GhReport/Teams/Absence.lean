import GhReport.Publication.Continuity
import GhReport.Teams.Refresh

/-! # What a tick takes as absence

A roster is detached only when the members endpoint of its team answered 404, or
when a whole enumeration of the teams named no spelling of its slug. Until then
a complete roster stays, and only a whole listing of its members replaces it.
-/

namespace GhReport.Teams

open Domain Event Projection App GitHub EvidenceProjection Source Upsert

variable {S : Source}

/-! ## Rosters of a tick -/

namespace Tick

variable (tick : Tick S)

/-- The roster came about in the tick, with the membership that the tick found. -/
structure Collects (answered : List (String × ApiOutcome)) (roster : TeamRoster) : Prop where
  deleted : roster.status = .deleted → ∃ pair ∈ tick.teamPairs, ∃ safeSlug outcome,
    pair.2 = roster.teamSlug ∧ S.sanitizePathSegment pair.2 = some safeSlug ∧
      (safeSlug, outcome) ∈ answered ∧ outcome.statusCode = some 404
  complete : roster.status = .complete → ∃ i parsed,
    MembersListed S (tick.answers.members i) roster.teamSlug parsed ∧
      roster.members = (S.sortMembers (parsed.map teamMember)).map (S.enrichMember tick.orgMembers)
  enriched : ∀ member ∈ roster.members, ∃ unenriched,
    member = S.enrichMember tick.orgMembers unenriched

variable {tick}

theorem collects_of_mem (hcache : tick.cache.Answered) {roster : TeamRoster}
    (h : roster ∈ tick.rosters) : tick.Collects tick.collected.2.answered roster := by
  obtain ⟨collected, hmem, rfl⟩ := List.mem_map.mp h
  obtain ⟨hrosters, -, -⟩ := collectTeamRosters_collected (S := S) tick.answers.members
    tick.answers.now tick.teamPairs (i := 0) hcache
  obtain ⟨pair, hpair, hcollected⟩ := hrosters collected hmem
  constructor
  · intro hdeleted
    obtain ⟨safeSlug, outcome, hsafe, hanswered, hstatus⟩ := hcollected.deleted hdeleted
    exact ⟨pair, hpair, safeSlug, outcome, hcollected.teamSlug.symm, hsafe, hanswered, hstatus⟩
  · intro hcomplete
    obtain ⟨i, parsed, hlisted, hmembers⟩ := hcollected.complete hcomplete
    refine ⟨i, parsed, ?_, ?_⟩
    · dsimp only
      rw [hcollected.teamSlug]
      exact hlisted
    · dsimp only
      rw [hmembers]
  · intro member hmember
    obtain ⟨unenriched, -, rfl⟩ := List.mem_map.mp hmember
    exact ⟨unenriched, rfl⟩

/-- A pair names the slug, up to the case of its letters. -/
theorem exists_pair_of_mem {slug : S.TeamSlug} (h : slug ∈ tick.discovery.slugs) :
    ∃ pair ∈ tick.teamPairs, eqIgnoreAsciiCase pair.2.toList slug.1.toList = true := by
  have hadd : ∀ (slugs : List String) (pairs : List (String × String)),
      (∀ pair ∈ pairs, pair ∈ slugs.foldl (addTeam S.client.orgName) pairs) ∧
        ∀ slug ∈ slugs, ∃ pair ∈ slugs.foldl (addTeam S.client.orgName) pairs,
          eqIgnoreAsciiCase pair.2.toList slug.toList = true := by
    intro slugs
    induction slugs with
    | nil => exact fun pairs => ⟨fun _ => id, nofun⟩
    | cons first slugs ih =>
      intro pairs
      obtain ⟨hkept, hnamed⟩ := ih (addTeam S.client.orgName pairs first)
      have hfirst : (∀ pair ∈ pairs, pair ∈ addTeam S.client.orgName pairs first) ∧
          ∃ pair ∈ addTeam S.client.orgName pairs first,
            eqIgnoreAsciiCase pair.2.toList first.toList = true := by
        unfold addTeam
        split
        · next hany => exact ⟨fun _ => id, List.any_eq_true.mp hany⟩
        · refine ⟨fun _ => List.mem_append_left _, _, List.mem_append_right _
            (List.mem_singleton.mpr rfl), ?_⟩
          exact beq_self_eq_true _
      constructor
      · exact fun pair hpair => hkept pair (hfirst.1 pair hpair)
      · intro slug hslug
        rcases List.mem_cons.mp hslug with rfl | hslug
        · obtain ⟨pair, hpair, hsame⟩ := hfirst.2
          exact ⟨pair, hkept pair hpair, hsame⟩
        · exact hnamed slug hslug
  exact (hadd _ _).2 slug.1 (List.mem_map_of_mem h)

theorem mem_teamPairs_of_codeowners {pair : String × String} (h : pair ∈ tick.codeownersTeams) :
    pair ∈ tick.teamPairs := by
  have hadd : ∀ (slugs : List String) (pairs : List (String × String)), pair ∈ pairs →
      pair ∈ slugs.foldl (addTeam S.client.orgName) pairs := by
    intro slugs
    induction slugs with
    | nil => exact fun _ => id
    | cons first slugs ih =>
      intro pairs hpair
      apply ih
      unfold addTeam
      split
      · exact hpair
      · exact List.mem_append_left _ hpair
  exact hadd _ _ h

theorem mem_currentKeys {key : String} :
    key ∈ tick.currentKeys ↔ ∃ pair ∈ tick.teamPairs,
      teamDomainKey S.client.orgName pair.2 = .ok key := by
  unfold currentKeys
  rw [List.mem_filterMap]
  constructor
  · rintro ⟨pair, hpair, hkey⟩
    refine ⟨pair, hpair, ?_⟩
    cases hpairKey : teamDomainKey S.client.orgName pair.2 with
    | ok key' =>
      rw [hpairKey] at hkey
      exact congrArg Except.ok (Option.some.inj hkey)
    | error e =>
      rw [hpairKey] at hkey
      cases hkey
  · rintro ⟨pair, hpair, hkey⟩
    refine ⟨pair, hpair, ?_⟩
    rw [hkey]
    rfl

end Tick

/-! ## Invariant -/

/-- The rosters in writing are those of the tick; what is omitted is stale. -/
structure Sound (s : Refresh S) : Prop where
  keyed : TeamsKeyed S.client.orgName s.app.projectionState.value
  cache : s.cache.Answered
  recording : ∀ tick rosters attempt, s.phase = .recording tick rosters attempt →
    tick.cache.Answered ∧ tick.collected.2 = s.cache ∧ ∀ roster ∈ rosters, roster ∈ tick.rosters
  omitting : ∀ tick stale attempt, s.phase = .omitting tick stale attempt →
    tick.discovery.authorizesOmissionDetach = true ∧ ∀ entry ∈ stale,
      entry.1 ∉ tick.currentKeys ∧ teamDomainKey S.client.orgName entry.2.teamSlug = .ok entry.1

theorem ofOrg_of_writeOf {s : Refresh S} {i : RefreshInput} {write : WriteOp × Fates}
    (h : s.writeOf i = some write) : write.1.OfOrg S.client.orgName := by
  cases i with
  | start answers => cases h
  | other other fates =>
    cases h
    obtain ⟨op, hop⟩ := other
    cases op with
    | recordTeam | detachTeam => exact hop.elim
    | recordRepo | removeRepo | markRepoDeleted | recordOrg => trivial
  | advance fates =>
    obtain ⟨⟨tick, detach, roster⟩, -, rfl⟩ := Option.map_eq_some_iff.mp h
    cases detach <;> exact rfl

theorem Sound.keyed_step {R : Runtime} {s : Refresh S} (h : Sound s) (i : RefreshInput) :
    TeamsKeyed S.client.orgName ((machine R S).step s i).2.app.projectionState.value := by
  rw [app_step]
  split
  · next write hwrite => exact h.keyed.step (ofOrg_of_writeOf hwrite)
  · exact h.keyed

theorem Sound.cache_step {R : Runtime} {s : Refresh S} (h : Sound s) (i : RefreshInput) :
    ((machine R S).step s i).2.cache.Answered := by
  cases i with
  | start answers =>
    simp only [machine, Refresh.start]
    split
    · split
      · exact h.cache
      · exact (collectTeamRosters_collected (S := S) _ _ _ h.cache).2.1
    · exact h.cache
  | other write fates => exact h.cache
  | advance fates =>
    rw [Teams.cache_step _ fun _ h => by cases h]
    exact h.cache

theorem Sound.recording_step {R : Runtime} {s : Refresh S} (h : Sound s) (i : RefreshInput) :
    ∀ tick rosters attempt,
      ((machine R S).step s i).2.phase = .recording tick rosters attempt →
      tick.cache.Answered ∧ tick.collected.2 = ((machine R S).step s i).2.cache ∧
        ∀ roster ∈ rosters, roster ∈ tick.rosters := by
  intro tick rosters attempt hphase
  cases i with
  | start answers =>
    simp only [machine, Refresh.start] at hphase ⊢
    split at hphase
    · next hidle =>
      split at hphase
      · next hrefused =>
        rw [if_pos hrefused]
        exact h.recording tick rosters attempt hphase
      · next hadmitted =>
        cases hphase
        rw [if_neg hadmitted]
        exact ⟨h.cache, rfl, fun _ => id⟩
    · next hbusy => exact h.recording tick rosters attempt hphase
  | other write fates => exact h.recording tick rosters attempt hphase
  | advance fates =>
    rw [Teams.cache_step _ fun _ h => by cases h]
    have hturns := turns_step (R := R) s (.advance fates)
    rw [hphase] at hturns
    generalize hafter : TickPhase.recording tick rosters attempt = phase at hturns
    generalize ((machine R S).step s (.advance fates)).1 = answer at hturns
    cases hturns with
    | same => exact h.recording tick rosters attempt hafter.symm
    | recorded hbefore =>
      cases hafter
      obtain ⟨hcache, hcollected, hrosters⟩ := h.recording _ _ _ hbefore
      exact ⟨hcache, hcollected, fun roster hroster =>
        hrosters roster (List.mem_cons_of_mem _ hroster)⟩
    | recordAgain hbefore =>
      cases hafter
      exact h.recording _ _ _ hbefore
    | omitted | omitAgain | failed | recordedAll | finished => cases hafter

theorem sound_step {R : Runtime} (s : Refresh S) (i : RefreshInput) (h : Sound s) :
    Sound ((machine R S).step s i).2 := by
  have hturns := turns_step (R := R) s i
  constructor
  · exact h.keyed_step i
  · exact h.cache_step i
  · exact h.recording_step i
  · intro tick stale attempt hphase
    rw [hphase] at hturns
    generalize hafter : TickPhase.omitting tick stale attempt = phase at hturns
    generalize ((machine R S).step s i).1 = answer at hturns
    cases hturns with
    | same => exact h.omitting tick stale attempt hafter.symm
    | omitted hbefore =>
      cases hafter
      obtain ⟨hauthorized, hstale⟩ := h.omitting _ _ _ hbefore
      exact ⟨hauthorized, fun entry hentry => hstale entry (List.mem_cons_of_mem _ hentry)⟩
    | omitAgain hbefore =>
      cases hafter
      exact h.omitting _ _ _ hbefore
    | recordedAll hbefore hauthorized =>
      cases hafter
      refine ⟨hauthorized, fun entry hentry => ?_⟩
      obtain ⟨hmem, hstale⟩ := List.mem_filter.mp hentry
      have hroster := Std.ExtTreeMap.mem_toList_iff_getElem?_eq_some.mp hmem
      exact ⟨by simpa using hstale, h.keyed _ _ hroster⟩
    | started | recorded | recordAgain | failed | finished => cases hafter

theorem sound_init (app : AppState)
    (h : TeamsKeyed S.client.orgName app.projectionState.value) :
    Sound (S := S) ⟨app, ⟨[], []⟩, .idle⟩ := by
  constructor
  · exact h
  · rintro slug ⟨⟩
  · rintro tick rosters attempt ⟨⟩
  · rintro tick stale attempt ⟨⟩

/-! ## Detaches -/

/-- The next write of the tick detaches the team of this key. -/
def Refresh.Detaches (s : Refresh S) (tick : Tick S) (key : String) : Prop :=
  ∃ roster, s.teamWrite = some (tick, true, roster) ∧
    teamDomainKey S.client.orgName roster.teamSlug = .ok key

/-- The members endpoint of a team with this key, which the tick fetched, has answered 404. -/
def AnsweredDeleted (s : Refresh S) (tick : Tick S) (key : String) : Prop :=
  ∃ pair ∈ tick.teamPairs, ∃ safeSlug outcome,
    teamDomainKey S.client.orgName pair.2 = .ok key ∧
      S.sanitizePathSegment pair.2 = some safeSlug ∧
      (safeSlug, outcome) ∈ s.cache.answered ∧ outcome.statusCode = some 404

/--
The teams were enumerated whole, and the key is of no team of CODEOWNERS, and of no listed slug
except one whose team was fetched in another spelling.
-/
def Omitted (tick : Tick S) (key : String) : Prop :=
  (∃ slugs, TeamsListed S tick.answers.discovery slugs ∧ ∀ slug ∈ slugs,
    teamDomainKey S.client.orgName slug.1 ≠ .ok key ∨ ∃ pair ∈ tick.teamPairs,
      pair.2 ≠ slug.1 ∧ eqIgnoreAsciiCase pair.2.toList slug.1.toList = true) ∧
  ∀ pair ∈ tick.codeownersTeams, teamDomainKey S.client.orgName pair.2 ≠ .ok key

theorem Sound.detaches {s : Refresh S} (h : Sound s) {tick : Tick S} {key : String}
    (hdetaches : s.Detaches tick key) : AnsweredDeleted s tick key ∨ Omitted tick key := by
  obtain ⟨roster, hwrite, hkey⟩ := hdetaches
  unfold Refresh.teamWrite at hwrite
  split at hwrite
  · next tick' roster' rest attempt hphase =>
    left
    simp only [Option.some.injEq, Prod.mk.injEq, decide_eq_true_eq] at hwrite
    obtain ⟨rfl, hdeleted, rfl⟩ := hwrite
    obtain ⟨hcache, hcollected, hrosters⟩ := h.recording _ _ _ hphase
    have hcollects := Tick.collects_of_mem hcache (hrosters _ (List.mem_cons_self ..))
    obtain ⟨pair, hpair, safeSlug, outcome, hslug, hsafe, hanswered, hstatus⟩ :=
      hcollects.deleted hdeleted
    rw [hcollected] at hanswered
    rw [← hslug] at hkey
    exact ⟨pair, hpair, safeSlug, outcome, hkey, hsafe, hanswered, hstatus⟩
  · next tick' entry rest attempt hphase =>
    right
    cases hwrite
    obtain ⟨hauthorized, hstale⟩ := h.omitting _ _ _ hphase
    obtain ⟨hcurrent, hown⟩ := hstale entry (List.mem_cons_self ..)
    obtain rfl : entry.1 = key := Except.ok.inj (hown.symm.trans hkey)
    have hother : ∀ pair ∈ tick.teamPairs,
        teamDomainKey S.client.orgName pair.2 ≠ .ok entry.1 :=
      fun pair hpair hpairKey => hcurrent (Tick.mem_currentKeys.mpr ⟨pair, hpair, hpairKey⟩)
    constructor
    · refine ⟨tick.discovery.slugs, teamsListed_of_authorized hauthorized, fun slug hslug => ?_⟩
      by_cases hslugKey : teamDomainKey S.client.orgName slug.1 = .ok entry.1
      · obtain ⟨pair, hpair, hspelling⟩ := Tick.exists_pair_of_mem hslug
        refine .inr ⟨pair, hpair, ?_, hspelling⟩
        intro hsame
        exact hother pair hpair (hsame ▸ hslugKey)
      · exact .inl hslugKey
    · exact fun pair hpair => hother pair (Tick.mem_teamPairs_of_codeowners hpair)
  · cases hwrite

/-! ## Membership of the organisation -/

theorem Sound.departed {s : Refresh S} (h : Sound s) {tick : Tick S} {roster : TeamRoster}
    (hwrite : s.teamWrite = some (tick, false, roster)) {member : TeamMember}
    (hmember : member ∈ roster.members) (hdeparted : member.inOrg = some false) :
    ∃ logins, OrgMembersListed S tick.answers.orgMembers logins ∧
      S.toLowercase member.login ∉ logins.map S.toLowercase := by
  unfold Refresh.teamWrite at hwrite
  split at hwrite
  · next tick' roster' rest attempt hphase =>
    simp only [Option.some.injEq, Prod.mk.injEq] at hwrite
    obtain ⟨rfl, -, rfl⟩ := hwrite
    obtain ⟨hcache, -, hrosters⟩ := h.recording _ _ _ hphase
    have hcollects := Tick.collects_of_mem hcache (hrosters _ (List.mem_cons_self ..))
    obtain ⟨unenriched, rfl⟩ := hcollects.enriched member hmember
    obtain ⟨set, hset, hnot⟩ := Option.map_eq_some_iff.mp hdeparted
    obtain ⟨logins, hlisted, rfl⟩ := orgMembersListed_of_some hset
    refine ⟨logins, hlisted, fun hmem => ?_⟩
    have hmem : S.toLowercase unenriched.login ∈ logins.map S.toLowercase := hmem
    rw [List.contains_iff_mem.mpr hmem] at hnot
    cases hnot
  · cases hwrite
  · cases hwrite

/-! ## Complete rosters -/

/-- The input starts no tick and detaches no team of this key. -/
def SparesTeam (key : String) (s : Refresh S) : RefreshInput → Prop
  | .start _ => False
  | .advance _ => ∀ tick, ¬ s.Detaches tick key
  | .other .. => True

/-- The members of the roster are those of a whole listing of its team, in answers of the tick. -/
def FromListing (S : Source) (answers : TickAnswers) (key : String) (roster : TeamRoster) : Prop :=
  ∃ slug i parsed, teamDomainKey S.client.orgName slug = .ok key ∧
    MembersListed S (answers.members i) slug parsed ∧
    roster.members.map (fun m => (m.login, m.role)) =
      (S.sortMembers (parsed.map teamMember)).map fun m => (m.login, m.role)

/-- A complete roster is there: the one from before the tick, or one from a whole listing. -/
structure Continues (asked : TickAnswers) (key : String) (before : TeamRoster)
    (s : Refresh S) : Prop where
  sound : Sound s
  answers : ∀ tick rosters attempt, s.phase = .recording tick rosters attempt →
    tick.answers = asked
  roster : ∃ roster, s.app.projectionState.value.teamRosters[key]? = some roster ∧
    roster.status = .complete ∧ (roster = before ∨ FromListing S asked key roster)

/-- A record leaves a complete roster complete, its own or a new one from a whole listing. -/
theorem Continues.recorded {asked : TickAnswers} {key : String} {before : TeamRoster}
    {s : Refresh S} (h : Continues asked key before s) {tick : Tick S} {roster : TeamRoster}
    (hwrite : s.teamWrite = some (tick, false, roster)) {after : TeamSlot}
    (hmoves : (tick.writeTeamEvent false roster).TeamMoves key
      (s.app.projectionState.value.teamSlot key) after) :
    ∃ roster, after.roster = some roster ∧ roster.status = .complete ∧
      (roster = before ∨ FromListing S asked key roster) := by
  obtain ⟨current, hcurrent, hstatus, horigin⟩ := h.roster
  have hslot : (s.app.projectionState.value.teamSlot key).roster = some current := hcurrent
  obtain ⟨event, hcarries, rfl⟩ := hmoves
  split
  · next hkey =>
    cases hcomplete : rosterComplete event.toDomain with
    | false =>
      refine ⟨current, ?_, hstatus, horigin⟩
      have hany : (s.app.projectionState.value.teamSlot key).roster.any rosterComplete = true := by
        simp [hslot, rosterComplete, hstatus]
      rw [keep_of_incomplete _ hcomplete, if_pos hany, hslot]
    | true =>
      have hdone : event.toDomain.status = .complete := by simpa [rosterComplete] using hcomplete
      refine ⟨event.toDomain, keep_of_complete _ hcomplete _, hdone, .inr ?_⟩
      unfold Refresh.teamWrite at hwrite
      split at hwrite
      · next tick' roster' rest attempt hphase =>
        simp only [Option.some.injEq, Prod.mk.injEq] at hwrite
        obtain ⟨rfl, -, rfl⟩ := hwrite
        obtain ⟨hcache, -, hrosters⟩ := h.sound.recording _ _ _ hphase
        have hcollects := Tick.collects_of_mem hcache (hrosters _ (List.mem_cons_self ..))
        obtain ⟨i, parsed, hlisted, hmembers⟩ :=
          hcollects.complete (hcarries.status.symm.trans hdone)
        rw [h.answers _ _ _ hphase] at hlisted
        refine ⟨roster'.teamSlug, i, parsed, hkey ▸ hcarries.key, hlisted, ?_⟩
        rw [hcarries.members, hmembers, List.map_map]
        rfl
      · cases hwrite
      · cases hwrite
  · exact ⟨current, hslot, hstatus, horigin⟩

theorem continues_step {R : Runtime} {asked : TickAnswers} {key : String} {before : TeamRoster}
    (s : Refresh S) (i : RefreshInput) (h : Continues asked key before s)
    (hi : SparesTeam key s i) : Continues asked key before ((machine R S).step s i).2 := by
  constructor
  · exact sound_step s i h.sound
  · intro tick rosters attempt hphase
    have hturns := turns_step (R := R) s i
    rw [hphase] at hturns
    generalize hafter : TickPhase.recording tick rosters attempt = phase at hturns
    generalize ((machine R S).step s i).1 = answer at hturns
    cases hturns with
    | same => exact h.answers tick rosters attempt hafter.symm
    | started => exact hi.elim
    | recorded hbefore =>
      cases hafter
      exact h.answers _ _ _ hbefore
    | recordAgain hbefore =>
      cases hafter
      exact h.answers _ _ _ hbefore
    | omitted | omitAgain | failed | recordedAll | finished => cases hafter
  · rw [app_step]
    split
    · next write hwrite =>
      rcases teamMoves_step (R := R) s.app write key with ⟨-, hmoves⟩ | ⟨-, hsame⟩
      · cases i with
        | start answers => cases hwrite
        | other other fates =>
          cases hwrite
          obtain ⟨op, hop⟩ := other
          cases op with
          | recordTeam | detachTeam => exact hop.elim
          | recordRepo | removeRepo | markRepoDeleted | recordOrg =>
            have hslot : _ = _ := hmoves
            have hroster := congrArg TeamSlot.roster hslot
            obtain ⟨roster, hcurrent, hrest⟩ := h.roster
            exact ⟨roster, hroster.trans hcurrent, hrest⟩
        | advance fates =>
          obtain ⟨⟨tick, detach, roster⟩, hteamWrite, rfl⟩ := Option.map_eq_some_iff.mp hwrite
          cases detach with
          | false => exact h.recorded hteamWrite hmoves
          | true =>
            obtain ⟨event, hcarries, hslot⟩ := hmoves
            have hother : event.key ≠ key := by
              rintro rfl
              exact hi tick ⟨roster, hteamWrite, hcarries.key⟩
            rw [if_neg hother] at hslot
            have hroster := congrArg TeamSlot.roster hslot
            obtain ⟨current, hcurrent, hrest⟩ := h.roster
            exact ⟨current, hroster.trans hcurrent, hrest⟩
      · rw [hsame]
        exact h.roster
    · exact h.roster

/-- A step that starts a tick leaves the projection alone. -/
theorem continues_start {R : Runtime} {asked : TickAnswers} {key : String} {before : TeamRoster}
    {s : Refresh S} (hsound : Sound s) (hidle : s.phase = .idle)
    (hbefore : s.app.projectionState.value.teamRosters[key]? = some before)
    (hcomplete : before.status = .complete) :
    Continues asked key before ((machine R S).step s (.start asked)).2 := by
  constructor
  · exact sound_step s _ hsound
  · intro tick rosters attempt hphase
    have hturns := turns_step (R := R) s (.start asked)
    rw [hphase] at hturns
    generalize hafter : TickPhase.recording tick rosters attempt = phase at hturns
    generalize ((machine R S).step s (.start asked)).1 = answer at hturns
    cases hturns with
    | same =>
      rw [hidle] at hafter
      cases hafter
    | started _ tick' htick =>
      cases hafter
      rw [htick]
  · rw [app_step]
    exact ⟨before, hbefore, hcomplete, .inl rfl⟩

/--
Absence is taken from whole evidence only: over every run, a detach, a departed member and a
complete roster that goes away each have a whole answer behind them.
-/
theorem absence_from_whole_evidence (R : Runtime) (S : Source) {app : AppState}
    (hkeyed : TeamsKeyed S.client.orgName app.projectionState.value) (is : List RefreshInput) :
    let after := (machine R S).after ⟨app, ⟨[], []⟩, .idle⟩
    let s := after is
    (∀ tick key, s.Detaches tick key → AnsweredDeleted s tick key ∨ Omitted tick key) ∧
    (∀ tick roster, s.teamWrite = some (tick, false, roster) → ∀ member ∈ roster.members,
      member.inOrg = some false → ∃ logins, OrgMembersListed S tick.answers.orgMembers logins ∧
        S.toLowercase member.login ∉ logins.map S.toLowercase) ∧
    ∀ is₁ answers js key before, is = is₁ ++ .start answers :: js → (after is₁).phase = .idle →
      (after is₁).app.projectionState.value.teamRosters[key]? = some before →
      before.status = .complete →
      (machine R S).Along (SparesTeam key) (after (is₁ ++ [.start answers])) js →
      ∃ roster, s.app.projectionState.value.teamRosters[key]? = some roster ∧
        roster.status = .complete ∧ (roster = before ∨ FromListing S answers key roster) := by
  intro after s
  have hsound : ∀ is, Sound (after is) :=
    fun is => Machine.invariant sound_step (sound_init app hkeyed) is
  refine ⟨fun tick key => (hsound is).detaches, fun tick roster hwrite member hmember =>
    (hsound is).departed hwrite hmember, ?_⟩
  intro is₁ answers js key before his hidle hbefore hcomplete hspares
  have hstart : Continues answers key before (after (is₁ ++ [.start answers])) := by
    have hstep : Continues answers key before ((machine R S).step (after is₁) (.start answers)).2 :=
      continues_start (hsound is₁) hidle hbefore hcomplete
    simp only [after] at hstep ⊢
    rw [Machine.after_append]
    exact hstep
  have hrun : Continues answers key before s := by
    have hall := Machine.invariant_along continues_step hstart hspares
    have hsplit : s = (machine R S).after (after (is₁ ++ [.start answers])) js := by
      simp only [s, after, his]
      rw [← Machine.after_append, List.append_assoc, List.singleton_append]
    rw [hsplit]
    exact hall
  exact hrun.roster

/-! ## Runs -/

section Runs

open Publication

def sampleBody (body : String) : Except String Json :=
  if body = "teams" then .ok (.array [.object [("slug", .string "Team")]])
  else if body = "members" then
    .ok (.array [.object [("login", .string "Ada"), ("role", .string "member")]])
  else .ok (.array [])

def sampleSource : Source where
  client := ⟨"https://api", "https://api", "org", fun _ => none, sampleBody, fun _ => ""⟩
  sanitizePathSegment := some
  sanitize_sanitized _ := rfl
  toLowercase text := String.ofList (text.toList.map Char.toLower)

/-- Every request is answered by one page with this status and body. -/
def sampleAnswer (status : UInt16) (body : String) : RequestEnvironment :=
  ⟨false, .ok (), true, fun _ =>
    ⟨fun _ _ => ⟨false, true, .ok ⟨status, [], none, [.ok body.toUTF8.data.toList]⟩⟩, false,
      .ok ()⟩⟩

/-- A listing of the team `Team`, whose members endpoint answers with this status. -/
def sampleAnswers (status : UInt16) : TickAnswers :=
  ⟨sampleAnswer 200 "teams", fun _ => sampleAnswer status "members", sampleAnswer 200 "none", "",
    fun _ => sampleTimestamp⟩

def sampleTick (status : UInt16) : RefreshInput := .start (sampleAnswers status)

def sampleAdvance (fiber : Store.FiberStatus) : RefreshInput :=
  .advance ⟨landingOn fiber, landingOn fiber⟩

/-- CODEOWNERS of a repository names the team in lowercase. -/
def sampleCodeowners : RefreshInput :=
  let evidence := sampleEvidence "key" true
  let codeowners := .conforming (.parsed ⟨[], ["@org/team"], 0⟩) sampleTimestamp
  let checks := { evidence.checks with codeowners := codeowners }
  .other ⟨.recordRepo "key" { evidence with checks := checks } "key" sampleTimestamp, trivial⟩
    ⟨landingOn .undefined, landingOn .undefined⟩

def sampleRefresh (is : List RefreshInput) : Refresh sampleSource :=
  (machine sampleRuntime sampleSource).after ⟨.empty, ⟨[], []⟩, .idle⟩ is

/-- The slugs whose rosters are complete. -/
def completeSlugs (s : Refresh sampleSource) : List String :=
  ((s.app.projectionState.value.teamRosters.toList.map Prod.snd).filter rosterComplete).map
    TeamRoster.teamSlug

/-- The next write: whether it detaches, its slug, and the slugs that its tick listed. -/
def nextTeamWrite (s : Refresh sampleSource) : Option (Bool × String × List String) :=
  s.teamWrite.map fun write =>
    (write.2.1, write.2.2.teamSlug, write.1.discovery.slugs.map Subtype.val)

/-- A tick with the team as it is listed, and one after CODEOWNERS named it in lowercase. -/
def sampleRespelled : List RefreshInput :=
  [sampleTick 200, sampleAdvance .undefined, sampleAdvance .undefined, sampleAdvance .undefined,
    sampleCodeowners, sampleTick 200, sampleAdvance .undefined, sampleAdvance .undefined]

theorem sampleRespelled_detaches :
    ∃ tick key, (sampleRefresh sampleRespelled).Detaches tick key ∧
      ¬ AnsweredDeleted (sampleRefresh sampleRespelled) tick key ∧
      ∃ slug ∈ tick.discovery.slugs, teamDomainKey "org" slug.1 = .ok key := by
  have hwrite : nextTeamWrite (sampleRefresh sampleRespelled) = some (true, "Team", ["Team"]) := by
    decide +kernel
  have hanswered : (sampleRefresh sampleRespelled).cache.answered.all
      (fun entry => entry.2.statusCode ≠ some 404) = true := by
    decide +kernel
  obtain ⟨⟨tick, detach, roster⟩, hteamWrite, hview⟩ := Option.map_eq_some_iff.mp hwrite
  simp only [Prod.mk.injEq] at hview
  obtain ⟨rfl, hroster, hslugs⟩ := hview
  obtain ⟨slug, hslug, hname⟩ : ∃ slug ∈ tick.discovery.slugs, slug.1 = "Team" :=
    List.mem_map.mp (hslugs ▸ List.mem_singleton.mpr rfl)
  obtain ⟨key, hkey⟩ : ∃ key, teamDomainKey "org" "Team" = .ok key := ⟨_, rfl⟩
  refine ⟨tick, key, ⟨roster, hteamWrite, ?_⟩, ?_, slug, hslug, ?_⟩
  · rw [hroster]
    exact hkey
  · rintro ⟨pair, -, safeSlug, outcome, -, -, hmem, hstatus⟩
    have hall := List.all_eq_true.mp hanswered (safeSlug, outcome) hmem
    simp [hstatus] at hall
  · rw [hname]
    exact hkey

/-- A team that is listed is detached, and no longer held: CODEOWNERS spells it another way. -/
theorem listed_spelling_detached :
    (∃ tick key, (sampleRefresh sampleRespelled).Detaches tick key ∧
      ¬ AnsweredDeleted (sampleRefresh sampleRespelled) tick key ∧
      ∃ slug ∈ tick.discovery.slugs, teamDomainKey "org" slug.1 = .ok key) ∧
    completeSlugs (sampleRefresh sampleRespelled) = ["Team", "team"] ∧
    completeSlugs (sampleRefresh (sampleRespelled ++ [sampleAdvance .active])) = ["team"] := by
  refine ⟨sampleRespelled_detaches, ?_, ?_⟩
  · decide +kernel
  · decide +kernel

/-- The detach of the sample has a whole enumeration of the teams behind it. -/
theorem absence_from_whole_evidence_respelled :
    ∃ tick key, (sampleRefresh sampleRespelled).Detaches tick key ∧ Omitted tick key := by
  obtain ⟨tick, key, hdetaches, hanswered, -⟩ := sampleRespelled_detaches
  have hkeyed : TeamsKeyed "org" AppState.empty.projectionState.value := teamsKeyed_default _
  have hall := absence_from_whole_evidence sampleRuntime sampleSource hkeyed sampleRespelled
  exact ⟨tick, key, hdetaches, (hall.1 tick key hdetaches).resolve_left hanswered⟩

end Runs

end GhReport.Teams
