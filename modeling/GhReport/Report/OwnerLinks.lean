import GhReport.Aggregate.OwnerPages
import GhReport.Report.Orphans

/-! # Links to the pages of owners

The overview and the pages take the slugs of one list of names, so they agree. A
row of an orphaned repository spells the slug out from the roster instead, which
is the page of the team only where both spellings make one slug and nobody had
it before.
-/

namespace GhReport.Report

open Domain Aggregate GitHub

/-! ## Owners ready for a render -/

/-- Whether orphans could be attributed to the owner, and the rate of owned repositories then. -/
inductive NonOrphanedControl where
  | measured (metric : RateMetric)
  | unresolved

structure AttributedOwner where
  metrics : OwnerMetrics
  nonOrphaned : NonOrphanedControl

/-- A roster or a group is about the owner, whatever the case of its letters. -/
def refersTo (team : String) (metrics : OwnerMetrics) : Bool :=
  eqIgnoreAsciiCase team.toList metrics.owner.toList

def attributionRan (metrics : OwnerMetrics) (teamRosters : List TeamRoster) : Bool :=
  let status := (teamRosters.find? fun r => refersTo r.canonicalOwner metrics).map TeamRoster.status
  match metrics.ownerType, status with
  | .user, _ => true
  | .team, some .complete | .ambiguousTeamShaped, some .complete => true
  | .team, _ | .ambiguousTeamShaped, _ => false

def attributeAll (ownerMetrics : List OwnerMetrics) (orphanedByTeam : List OrphanedTeamGroup)
    (teamRosters : List TeamRoster) : List AttributedOwner :=
  ownerMetrics.map fun metrics =>
    let attributed :=
      match orphanedByTeam.find? fun group => refersTo group.team metrics with
      | some group => countAsU32 group.rows.length
      | none => 0
    let owned := metrics.totalRepos
    { metrics := metrics
      nonOrphaned :=
        if attributionRan metrics teamRosters then
          .measured (.new owned (saturatingAdd owned attributed))
        else .unresolved }

/-! ## Overview and pages -/

/-- A row of the overview without its cells and scores. -/
structure OwnerOverviewRow where
  owner : String
  ownerShort : String
  slug : String
  ownerType : OwnerType
  repoCount : ℕ

/-- The page of an owner, as far as it is linked and joined to the orphans. -/
structure OwnerDetailViewModel where
  owner : String
  ownerShort : String
  orphanRepoRows : List OrphanedRepoRow
  orphanUnresolved : Bool

def displayNames (owners : List AttributedOwner) : List String :=
  owners.map fun o => o.metrics.displayName

def ownerOverviewRow (slugs : KeyMap String) (o : AttributedOwner) : OwnerOverviewRow where
  owner := o.metrics.displayName
  ownerShort := stripOrgPrefix o.metrics.displayName
  slug := slugs[o.metrics.displayName]?.getD "unknown"
  ownerType := o.metrics.ownerType
  repoCount := o.metrics.totalRepos

def buildOwnersViewModel (owners : List AttributedOwner) : Option (List OwnerOverviewRow) :=
  if owners.isEmpty then none
  else
    let slugs := generateUniqueSlugs (displayNames owners)
    some (owners.map (ownerOverviewRow slugs))

def buildOneOwnerDetailViewModel (owner : AttributedOwner) (slug : String)
    (teamRosters : List TeamRoster) (orphanedByTeam : List OrphanedTeamGroup) :
    String × OwnerDetailViewModel :=
  let m := owner.metrics
  (slug, {
    owner := m.displayName
    ownerShort := stripOrgPrefix m.displayName
    orphanRepoRows :=
      ((orphanedByTeam.find? fun group => refersTo group.team m).map OrphanedTeamGroup.rows).getD []
    orphanUnresolved := m.ownerType ≠ .user &&
      (teamRosters.find? fun r => refersTo r.canonicalOwner m).isNone })

def buildOwnerDetailViewModels (owners : List AttributedOwner) (teamRosters : List TeamRoster)
    (orphanedByTeam : List OrphanedTeamGroup) : List (String × OwnerDetailViewModel) :=
  if owners.isEmpty then []
  else
    let slugs := generateUniqueSlugs (displayNames owners)
    owners.filterMap fun o =>
      slugs[o.metrics.displayName]?.map fun slug =>
        buildOneOwnerDetailViewModel o slug teamRosters orphanedByTeam

/-- What one render builds of owners and orphans. -/
structure OwnerRender where
  ownerMetrics : List OwnerMetrics
  orphaned : OrphanedViewModel
  owners : Option (List OwnerOverviewRow)
  details : List (String × OwnerDetailViewModel)

def renderOwners (toLowercase : String → String) (repositories : List RepositoryEvidence)
    (teamRosters : List TeamRoster) : OwnerRender :=
  let ownerMetrics := buildOwnerMetrics toLowercase repositories
  let orphaned := buildOrphanedViewModel toLowercase repositories teamRosters
  let attributed := attributeAll ownerMetrics orphaned.byTeam teamRosters
  { ownerMetrics := ownerMetrics
    orphaned := orphaned
    owners := buildOwnersViewModel attributed
    details := buildOwnerDetailViewModels attributed teamRosters orphaned.byTeam }

/-! ## The names of the owners -/

section Names

variable {toLowercase : String → String} {repositories : List RepositoryEvidence}

theorem displayNames_attributeAll (ownerMetrics : List OwnerMetrics)
    (orphanedByTeam : List OrphanedTeamGroup) (teamRosters : List TeamRoster) :
    displayNames (attributeAll ownerMetrics orphanedByTeam teamRosters) =
      ownerMetrics.map OwnerMetrics.displayName := by
  simp [displayNames, attributeAll]

theorem toLowercase_displayName {m : OwnerMetrics}
    (hm : m ∈ buildOwnerMetrics toLowercase repositories) :
    toLowercase m.displayName = m.owner := by
  obtain ⟨owner, displayName, repos, hentry, rfl⟩ := mem_buildOwnerMetrics.mp hm
  exact buildOwnerRepoMap_spelled toLowercase repositories owner _ hentry

/-- No two owners are displayed alike. -/
theorem nodup_displayName (toLowercase : String → String)
    (repositories : List RepositoryEvidence) :
    ((buildOwnerMetrics toLowercase repositories).map OwnerMetrics.displayName).Nodup := by
  have hperm := List.perm_insertionSort
    (fun a b : OwnerMetrics => typeRank a.ownerType < typeRank b.ownerType
      ∨ typeRank a.ownerType = typeRank b.ownerType ∧ a.owner ≤ b.owner)
    ((buildOwnerRepoMap toLowercase repositories).toList.map fun entry =>
      ownerMetrics entry.1 entry.2.1 entry.2.2)
  rw [buildOwnerMetrics, (hperm.map _).nodup_iff, List.map_map]
  refine (KeyMap.nodup_toList _).map_on ?_
  rintro ⟨owner, displayName, repos⟩ hentry ⟨owner', displayName', repos'⟩ hentry' hname
  rw [Std.ExtTreeMap.mem_toList_iff_getElem?_eq_some] at hentry hentry'
  have hspelled := buildOwnerRepoMap_spelled toLowercase repositories owner _ hentry
  have hspelled' := buildOwnerRepoMap_spelled toLowercase repositories owner' _ hentry'
  obtain rfl : displayName = displayName' := hname
  obtain rfl : owner = owner' := hspelled.symm.trans hspelled'
  rw [hentry] at hentry'
  rw [Option.some.inj hentry']

end Names

/-- The names that come before a name in the list. -/
def namesBefore (owners : List String) (name : String) : List String :=
  owners.takeWhile fun other => other ≠ name

theorem eq_namesBefore_append {owners : List String} {name : String} (h : name ∈ owners)
    (hnodup : owners.Nodup) :
    ∃ after, owners = namesBefore owners name ++ name :: after ∧ name ∉ after := by
  induction owners with
  | nil => cases h
  | cons other owners ih =>
    obtain ⟨hother, hnodup⟩ := List.nodup_cons.mp hnodup
    by_cases hname : other = name
    · subst hname
      exact ⟨owners, by simp [namesBefore], hother⟩
    · rcases List.mem_cons.mp h with rfl | h
      · exact absurd rfl hname
      · obtain ⟨after, howners, hafter⟩ := ih h hnodup
        refine ⟨after, ?_, hafter⟩
        rw [namesBefore, List.takeWhile_cons_of_pos (by simpa using hname), List.cons_append]
        exact congrArg (other :: ·) howners

/-- The slug of an owner among the others. -/
def slugOf (owners : List String) (name : String) : String :=
  (slugTable (namesBefore owners name)).finalSlug name

theorem generateUniqueSlugs_eq_some {owners : List String} (hnodup : owners.Nodup) {name : String}
    (h : name ∈ owners) : (generateUniqueSlugs owners)[name]? = some (slugOf owners name) := by
  obtain ⟨after, howners, hafter⟩ := eq_namesBefore_append h hnodup
  conv_lhs => rw [howners]
  exact generateUniqueSlugs_append hafter

/-! ## Every link resolves -/

/-- The slug is that of the page of the owner. -/
def PageOf (details : List (String × OwnerDetailViewModel)) (m : OwnerMetrics) (slug : String) :
    Prop :=
  ∃ page ∈ details, page.1 = slug ∧ page.2.owner = m.displayName

/-- The pages have distinct slugs, and every link to an owner has the slug of its page. -/
structure LinksResolve (render : OwnerRender) : Prop where
  pages : (render.details.map Prod.fst).Nodup
  overview : ∀ rows, render.owners = some rows → ∀ row ∈ rows, ∀ m ∈ render.ownerMetrics,
    row.owner = m.displayName → PageOf render.details m row.slug
  orphans : ∀ row ∈ render.orphaned.rows, ∀ team, row.attributedTeam = some team →
    ∀ m ∈ render.ownerMetrics, refersTo team m = true →
      ∃ slug, row.attributedTeamSlug = some slug ∧ PageOf render.details m slug
  groups : ∀ group ∈ render.orphaned.byTeam, ∀ m ∈ render.ownerMetrics,
    refersTo group.team m = true → PageOf render.details m group.slug

section Links

variable {toLowercase : String → String} {repositories : List RepositoryEvidence}
  {teamRosters : List TeamRoster}

/-- The names that the owners of a render are displayed by, in the order of their pages. -/
abbrev pageNames (toLowercase : String → String) (repositories : List RepositoryEvidence) :
    List String :=
  (buildOwnerMetrics toLowercase repositories).map OwnerMetrics.displayName

theorem details_eq : (renderOwners toLowercase repositories teamRosters).details =
    (attributeAll (buildOwnerMetrics toLowercase repositories)
      (buildOrphanedViewModel toLowercase repositories teamRosters).byTeam teamRosters).map
      fun o => buildOneOwnerDetailViewModel o
        (slugOf (pageNames toLowercase repositories) o.metrics.displayName) teamRosters
        (buildOrphanedViewModel toLowercase repositories teamRosters).byTeam := by
  unfold renderOwners buildOwnerDetailViewModels
  dsimp only
  split
  · next hempty => rw [List.isEmpty_iff.mp hempty]; rfl
  · rw [displayNames_attributeAll]
    refine Eq.trans (List.filterMap_congr ?_) (congrFun List.filterMap_eq_map _)
    intro o ho
    have hname : o.metrics.displayName ∈ pageNames toLowercase repositories := by
      obtain ⟨m, hm, rfl⟩ := List.mem_map.mp ho
      exact List.mem_map_of_mem hm
    rw [generateUniqueSlugs_eq_some (nodup_displayName _ _) hname]
    rfl

/-- Each owner has one page, under its own slug. -/
theorem pageOf_iff {m : OwnerMetrics} (hm : m ∈ buildOwnerMetrics toLowercase repositories)
    {slug : String} :
    PageOf (renderOwners toLowercase repositories teamRosters).details m slug ↔
      slugOf (pageNames toLowercase repositories) m.displayName = slug := by
  simp only [PageOf, details_eq, attributeAll, List.map_map, List.mem_map]
  constructor
  · rintro ⟨page, ⟨m', hm', rfl⟩, rfl, hname⟩
    change m'.displayName = m.displayName at hname
    rw [← hname]
    rfl
  · rintro rfl
    exact ⟨_, ⟨m, hm, rfl⟩, rfl, rfl⟩

theorem usedSlugs_slugTable {owners : List String} (h : owners.Nodup) :
    owners.map (slugOf owners) = (slugTable owners).usedSlugs := by
  apply List.map_injective_iff.mpr (Option.some_injective String)
  rw [← (assigned_slugTable h).found, List.map_map]
  apply List.map_congr_left
  intro name hname
  exact (generateUniqueSlugs_eq_some h hname).symm

theorem nodup_pages :
    ((renderOwners toLowercase repositories teamRosters).details.map Prod.fst).Nodup := by
  have hnodup := nodup_displayName toLowercase repositories
  have hslugs : (renderOwners toLowercase repositories teamRosters).details.map Prod.fst =
      (pageNames toLowercase repositories).map (slugOf (pageNames toLowercase repositories)) := by
    simp only [details_eq, attributeAll, List.map_map]
    rfl
  rw [hslugs, usedSlugs_slugTable hnodup]
  exact (assigned_slugTable hnodup).nodup

theorem overview_resolves {rows : List OwnerOverviewRow}
    (hrows : (renderOwners toLowercase repositories teamRosters).owners = some rows)
    {row : OwnerOverviewRow} (hrow : row ∈ rows) {m : OwnerMetrics}
    (hm : m ∈ buildOwnerMetrics toLowercase repositories) (hname : row.owner = m.displayName) :
    PageOf (renderOwners toLowercase repositories teamRosters).details m row.slug := by
  simp only [renderOwners, buildOwnersViewModel, Option.ite_none_left_eq_some,
    Option.some.injEq] at hrows
  obtain ⟨-, rfl⟩ := hrows
  obtain ⟨o, ho, rfl⟩ := List.mem_map.mp hrow
  rw [pageOf_iff hm, displayNames_attributeAll]
  change o.metrics.displayName = m.displayName at hname
  simp only [ownerOverviewRow, hname,
    generateUniqueSlugs_eq_some (nodup_displayName toLowercase repositories)
      (List.mem_map_of_mem hm), Option.getD_some]

/--
The slug of the roster's name is the page of the owner: both spellings make the same slug, it is
not empty, and no owner before this one has taken it.
-/
def Spelled (owners : List String) (team : String) (m : OwnerMetrics) : Prop :=
  (slugTable (namesBefore owners m.displayName)).Plain m.displayName ∧
    generateSlug m.displayName = generateSlug team

theorem toLower_of_isDigit {c : Char} (h : c.isDigit = true) : c.toLower = c := by
  unfold Char.isDigit at h
  unfold Char.toLower
  simp only [Bool.and_eq_true, decide_eq_true_eq, ge_iff_le, UInt32.le_iff_toNat_le] at h ⊢
  rw [dif_neg]
  rintro ⟨hupper, -⟩
  have hlast := h.2
  simp only [UInt32.reduceToNat, Char.reduceVal] at hupper hlast
  omega

theorem isDigit_toLower (c : Char) : c.toLower.isDigit = c.isDigit := by
  unfold Char.toLower
  split
  · next h =>
    unfold Char.isDigit
    simp only [ge_iff_le, UInt32.le_iff_toNat_le, Char.reduceVal, UInt32.reduceToNat,
      Char.toNat_val, UInt32.reduceSub, UInt32.toNat_add, Nat.reducePow] at h ⊢
    grind
  · rfl

/-- Lowercasing the ASCII letters leaves the digits alone. -/
theorem filter_isDigit_toLower (chars : List Char) :
    (chars.map Char.toLower).filter Char.isDigit = chars.filter Char.isDigit := by
  induction chars with
  | nil => rfl
  | cons c chars ih =>
    rw [List.map_cons, List.filter_cons, List.filter_cons, isDigit_toLower, ih]
    split
    · next h => rw [toLower_of_isDigit h]
    · rfl

theorem digits_of_refersTo (hdigits : ∀ text, digits (toLowercase text) = digits text)
    {m : OwnerMetrics} (hm : m ∈ buildOwnerMetrics toLowercase repositories) {team : String}
    (h : refersTo team m = true) : digits team = digits m.displayName := by
  have hlower : team.toList.map Char.toLower = m.owner.toList.map Char.toLower :=
    beq_iff_eq.mp h
  have howner : digits team = digits m.owner := by
    rw [digits, ← filter_isDigit_toLower, hlower, filter_isDigit_toLower, digits]
  rw [howner, ← toLowercase_displayName hm, hdigits]

theorem pageOf_generateSlug_iff (hdigits : ∀ text, digits (toLowercase text) = digits text)
    {m : OwnerMetrics} (hm : m ∈ buildOwnerMetrics toLowercase repositories) {team : String}
    (h : refersTo team m = true) :
    PageOf (renderOwners toLowercase repositories teamRosters).details m (generateSlug team) ↔
      Spelled (pageNames toLowercase repositories) team m := by
  rw [pageOf_iff hm, slugOf]
  apply SlugTable.finalSlug_eq_iff
  rw [digits_generateSlug]
  exact digits_of_refersTo hdigits hm h

/--
The links of a render resolve exactly when every roster that an orphan is attributed to spells the
owners it refers to in a way that leads to their pages.
-/
theorem linksResolve_iff (toLowercase : String → String)
    (hdigits : ∀ text, digits (toLowercase text) = digits text)
    (repositories : List RepositoryEvidence) (teamRosters : List TeamRoster) :
    LinksResolve (renderOwners toLowercase repositories teamRosters) ↔
      ∀ roster, AttributedTo repositories teamRosters roster →
        ∀ m ∈ buildOwnerMetrics toLowercase repositories, refersTo roster.canonicalOwner m = true →
          Spelled (pageNames toLowercase repositories) roster.canonicalOwner m := by
  constructor
  · rintro h roster ⟨repo, hrepo, hlive, horphaned, hroster⟩ m hm hrefers
    obtain ⟨slug, hslug, hpage⟩ := h.orphans (orphanedRepoRow teamRosters repo)
      (mem_orphaned_rows.mpr ⟨repo, hrepo, hlive, horphaned, rfl⟩) roster.canonicalOwner
      (by simp [orphanedRepoRow, hroster]) m hm hrefers
    apply (pageOf_generateSlug_iff hdigits hm hrefers).mp
    simp only [orphanedRepoRow, hroster, Option.map_some, Option.some.injEq] at hslug
    rwa [hslug]
  · intro h
    refine ⟨nodup_pages, fun rows hrows row hrow m hm => overview_resolves hrows hrow hm, ?_, ?_⟩
    · intro row hrow team hteam m hm hrefers
      obtain ⟨repo, hrepo, hlive, horphaned, rfl⟩ := mem_orphaned_rows.mp hrow
      obtain ⟨roster, hroster, rfl⟩ := Option.map_eq_some_iff.mp hteam
      refine ⟨generateSlug roster.canonicalOwner, by simp [orphanedRepoRow, hroster], ?_⟩
      rw [pageOf_generateSlug_iff hdigits hm hrefers]
      exact h roster ⟨repo, hrepo, hlive, horphaned, hroster⟩ m hm hrefers
    · intro group hgroup m hm hrefers
      have hlinked : ∀ row ∈ (buildOrphanedViewModel toLowercase repositories teamRosters).rows,
          row.Linked := by
        intro row hrow
        obtain ⟨repo, -, -, -, rfl⟩ := mem_orphaned_rows.mp hrow
        exact linked_orphanedRepoRow teamRosters repo
      obtain ⟨hslug, row, hrow, hteam⟩ := mem_buildOrphanedByTeam hlinked hgroup
      obtain ⟨repo, hrepo, hlive, horphaned, rfl⟩ := mem_orphaned_rows.mp hrow
      obtain ⟨roster, hroster, hname⟩ := Option.map_eq_some_iff.mp hteam
      rw [← hname] at hrefers hslug
      rw [hslug, pageOf_generateSlug_iff hdigits hm hrefers]
      exact h roster ⟨repo, hrepo, hlive, horphaned, hroster⟩ m hm hrefers

end Links

/-! ## A team spelled in two ways -/

section Sample

def teamEvidence (owner : String) : RepositoryEvidence :=
  let owned := ownedEvidence (.absent "")
  { owned with checks :=
    { owned.checks with
      codeowners := .conforming (.parsed ⟨[⟨"*", [owner]⟩], [owner], 0⟩) "" } }

def orphanEvidence : RepositoryEvidence :=
  let owned := ownedEvidence (.absent "")
  { owned with
    checks := { owned.checks with codeowners := .absent "" }
    lastCommit := some ⟨some "dev", none, none⟩ }

def rosterOf (canonicalOwner : String) : TeamRoster where
  canonicalOwner := canonicalOwner
  teamSlug := "team"
  status := .complete
  members := [⟨"Dev", .member, none⟩]
  fetchedAt := none

theorem digits_asciiLowercase (text : String) : digits (asciiLowercase text) = digits text := by
  rw [digits, asciiLowercase, String.toList_ofList, filter_isDigit_toLower, digits]

theorem pageNames_teamEvidence :
    pageNames asciiLowercase [teamEvidence "@org/team", orphanEvidence] = ["@org/team"] := by
  decide +kernel

/-- A roster that spells the team as its owner does leads to its page. -/
theorem linksResolve_iff_spelled :
    LinksResolve (renderOwners asciiLowercase [teamEvidence "@org/team", orphanEvidence]
      [rosterOf "@org/team"]) := by
  refine (linksResolve_iff asciiLowercase digits_asciiLowercase _ _).mpr ?_
  rintro roster ⟨repo, -, -, -, hroster⟩ m hm -
  have hname : m.displayName ∈ ["@org/team"] := by
    rw [← pageNames_teamEvidence]
    exact List.mem_map_of_mem hm
  have hfound : roster ∈ [rosterOf "@org/team"] := by
    obtain ⟨login, -, hfind⟩ := Option.bind_eq_some_iff.mp hroster
    exact List.mem_of_find?_eq_some hfind
  obtain rfl := List.mem_singleton.mp hfound
  rw [Spelled, pageNames_teamEvidence, List.mem_singleton.mp hname]
  exact ⟨⟨by decide, by decide⟩, by decide⟩

/-- A roster that spells the organisation in another case leads to no page. -/
theorem not_linksResolve :
    ¬ ∀ (repositories : List RepositoryEvidence) (teamRosters : List TeamRoster),
      LinksResolve (renderOwners asciiLowercase repositories teamRosters) := by
  intro hclaim
  obtain ⟨m, hm, howner⟩ : ∃ m ∈ buildOwnerMetrics asciiLowercase
      [teamEvidence "@org/team", orphanEvidence], m.owner = "@org/team" := by
    decide +kernel
  have hname : m.displayName ∈ ["@org/team"] := by
    rw [← pageNames_teamEvidence]
    exact List.mem_map_of_mem hm
  have hrow : orphanedRepoRow [rosterOf "@Org/team"] orphanEvidence ∈
      (buildOrphanedViewModel asciiLowercase [teamEvidence "@org/team", orphanEvidence]
        [rosterOf "@Org/team"]).rows :=
    mem_orphaned_rows.mpr ⟨orphanEvidence, by simp, rfl, rfl, rfl⟩
  obtain ⟨slug, hslug, hpage⟩ := (hclaim _ _).orphans _ hrow "@Org/team" (by decide) m hm
    (by rw [refersTo, howner]; decide)
  rw [pageOf_iff hm, pageNames_teamEvidence, List.mem_singleton.mp hname] at hpage
  rw [← hpage] at hslug
  revert hslug
  decide

end Sample

end GhReport.Report
