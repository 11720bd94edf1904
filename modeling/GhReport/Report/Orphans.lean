import GhReport.Aggregate.Counts
import GhReport.GitHub.Pagination
import GhReport.Report.Slugs

/-! # Orphaned repositories

Repositories without owners, each attributed to the first team whose roster
lists its last committer, and the groups of those rows by team.
-/

namespace GhReport.Report

open Domain Aggregate GitHub

def isOrphaned (repo : RepositoryEvidence) : Bool :=
  match repo.checks.codeowners.status with
  | .absent => true
  | .unknown => false
  | .conforming | .nonConforming =>
    match repo.checks.codeowners.parsed with
    | some parsed => parsed.uniqueOwners.isEmpty
    | none => false

/-- The first roster that lists the committer, whatever the case of its letters. -/
def attributedRoster (committerLogin : Option String) (teamRosters : List TeamRoster) :
    Option TeamRoster := do
  let login ← committerLogin
  teamRosters.find? fun roster =>
    roster.members.any fun m => eqIgnoreAsciiCase m.login.toList login.toList

def emDash : String := "—"

/-- A row with what it is sorted and attributed by; the other columns play no part here. -/
structure OrphanedRepoRow where
  repoName : String
  lastCommitterLogin : String
  attributedTeam : Option String
  attributedTeamSlug : Option String
deriving DecidableEq

def committerLogin (repo : RepositoryEvidence) : Option String :=
  repo.lastCommit.bind LastCommitInfo.committerLogin

/-- The name of the last committer, or else the login. -/
def extractLastCommitDisplay (repo : RepositoryEvidence) : String :=
  match repo.lastCommit with
  | some info => (info.committerName.or info.committerLogin).getD emDash
  | none => emDash

def orphanedRepoRow (teamRosters : List TeamRoster) (repo : RepositoryEvidence) :
    OrphanedRepoRow :=
  let attributed := attributedRoster (committerLogin repo) teamRosters
  { repoName := repo.repository.name
    lastCommitterLogin := extractLastCommitDisplay repo
    attributedTeam := attributed.map fun r => r.canonicalOwner
    attributedTeamSlug := attributed.map fun r => generateSlug r.canonicalOwner }

structure OrphanedTeamGroup where
  team : String
  teamShort : String
  slug : String
  rows : List OrphanedRepoRow

/-- What follows the first slash, if there is one. -/
def stripOrgPrefix (owner : String) : String :=
  match splitOnce '/' owner.toList with
  | some (_, after) => String.ofList after
  | none => owner

section Views

variable (toLowercase : String → String)

/-- The rows with a team, by team. -/
def rowsByTeam (rows : List OrphanedRepoRow) : KeyMap (List OrphanedRepoRow) :=
  rows.foldl (fun byTeam row =>
    match row.attributedTeam with
    | some team => byTeam.insert team (byTeam[team]?.getD [] ++ [row])
    | none => byTeam) ∅

def orphanedTeamGroup (team : String) (teamRows : List OrphanedRepoRow) : OrphanedTeamGroup :=
  let teamRows := teamRows.insertionSort fun a b => toLowercase a.repoName ≤ toLowercase b.repoName
  { team := team
    teamShort := stripOrgPrefix team
    slug := (teamRows.head?.bind OrphanedRepoRow.attributedTeamSlug).getD ""
    rows := teamRows }

def buildOrphanedByTeam (rows : List OrphanedRepoRow) : List OrphanedTeamGroup :=
  let groups := (rowsByTeam rows).toList.map fun entry =>
    orphanedTeamGroup toLowercase entry.1 entry.2
  groups.insertionSort fun a b => a.team ≤ b.team

structure OrphanedViewModel where
  rows : List OrphanedRepoRow
  orphanedCount : ℕ
  byTeam : List OrphanedTeamGroup

def buildOrphanedViewModel (repositories : List RepositoryEvidence)
    (teamRosters : List TeamRoster) : OrphanedViewModel :=
  let orphans := repositories.filter fun r => !r.repository.archived && isOrphaned r
  let rows := (orphans.map (orphanedRepoRow teamRosters)).insertionSort fun a b =>
    toLowercase a.lastCommitterLogin < toLowercase b.lastCommitterLogin
      ∨ toLowercase a.lastCommitterLogin = toLowercase b.lastCommitterLogin
        ∧ toLowercase a.repoName ≤ toLowercase b.repoName
  { rows := rows
    orphanedCount := countAsU32 rows.length
    byTeam := buildOrphanedByTeam toLowercase rows }

end Views

/-! ## What the rows and groups say of a team -/

variable {toLowercase : String → String}

/-- A live repository without owners whose last committer is on the roster. -/
def AttributedTo (repositories : List RepositoryEvidence) (teamRosters : List TeamRoster)
    (roster : TeamRoster) : Prop :=
  ∃ repo ∈ repositories, repo.repository.archived = false ∧ isOrphaned repo = true ∧
    attributedRoster (committerLogin repo) teamRosters = some roster

theorem mem_orphaned_rows {repositories : List RepositoryEvidence}
    {teamRosters : List TeamRoster} {row : OrphanedRepoRow} :
    row ∈ (buildOrphanedViewModel toLowercase repositories teamRosters).rows ↔
      ∃ repo ∈ repositories, repo.repository.archived = false ∧ isOrphaned repo = true ∧
        orphanedRepoRow teamRosters repo = row := by
  simp [buildOrphanedViewModel, List.mem_insertionSort, and_assoc]

/-- The slug of a row is that of its team. -/
def OrphanedRepoRow.Linked (row : OrphanedRepoRow) : Prop :=
  row.attributedTeamSlug = row.attributedTeam.map generateSlug

theorem linked_orphanedRepoRow (teamRosters : List TeamRoster) (repo : RepositoryEvidence) :
    (orphanedRepoRow teamRosters repo).Linked := by
  unfold OrphanedRepoRow.Linked orphanedRepoRow
  cases attributedRoster (committerLogin repo) teamRosters <;> rfl

/-- The rows of a group are rows of its team, and there is one. -/
def GroupOf (rows : List OrphanedRepoRow) (team : String) (teamRows : List OrphanedRepoRow) :
    Prop :=
  teamRows ≠ [] ∧ ∀ row ∈ teamRows, row ∈ rows ∧ row.attributedTeam = some team

theorem all_rowsByTeam (rows : List OrphanedRepoRow) :
    KeyMap.All (GroupOf rows) (rowsByTeam rows) := by
  induction rows using List.reverseRecOn with
  | nil => exact KeyMap.All.empty
  | append_singleton rows row ih =>
    have hold : KeyMap.All (GroupOf (rows ++ [row])) (rowsByTeam rows) := by
      refine KeyMap.All.mono ih ?_
      intro team teamRows h
      exact ⟨h.1, fun other hother => ⟨List.mem_append_left _ (h.2 other hother).1,
        (h.2 other hother).2⟩⟩
    rw [rowsByTeam, List.foldl_concat, ← rowsByTeam]
    cases hteam : row.attributedTeam with
    | none => exact hold
    | some team =>
      apply hold.insert
      refine ⟨List.append_ne_nil_of_right_ne_nil _ (List.cons_ne_nil _ _), ?_⟩
      intro other hother
      rcases List.mem_append.mp hother with hmem | hmem
      · cases hentry : (rowsByTeam rows)[team]? with
        | none =>
          rw [hentry] at hmem
          cases hmem
        | some teamRows =>
          rw [hentry] at hmem
          exact (hold team teamRows hentry).2 other hmem
      · obtain rfl := List.mem_singleton.mp hmem
        exact ⟨List.mem_append_right _ (List.mem_singleton_self _), hteam⟩

/-- A group is about the team of one of the rows, and links to the slug of its name. -/
theorem mem_buildOrphanedByTeam {rows : List OrphanedRepoRow} (hlinked : ∀ row ∈ rows, row.Linked)
    {group : OrphanedTeamGroup} (h : group ∈ buildOrphanedByTeam toLowercase rows) :
    group.slug = generateSlug group.team ∧ ∃ row ∈ rows, row.attributedTeam = some group.team := by
  rw [buildOrphanedByTeam, List.mem_insertionSort, List.mem_map] at h
  obtain ⟨⟨team, teamRows⟩, hentry, rfl⟩ := h
  obtain ⟨hne, hrows⟩ := all_rowsByTeam rows team teamRows
    (Std.ExtTreeMap.mem_toList_iff_getElem?_eq_some.mp hentry)
  have hsorted : ∃ first rest, (teamRows.insertionSort fun a b =>
      toLowercase a.repoName ≤ toLowercase b.repoName) = first :: rest := by
    apply List.exists_cons_of_ne_nil
    intro hnil
    exact hne (List.perm_nil.mp (hnil ▸ (List.perm_insertionSort _ teamRows).symm))
  obtain ⟨first, rest, hfirst⟩ := hsorted
  have hmem : first ∈ teamRows := by
    rw [← List.mem_insertionSort fun a b => toLowercase a.repoName ≤ toLowercase b.repoName, hfirst]
    exact List.mem_cons_self ..
  obtain ⟨hrow, hteam⟩ := hrows first hmem
  refine ⟨?_, first, hrow, hteam⟩
  have hslug := hlinked first hrow
  simp only [orphanedTeamGroup, hfirst, List.head?_cons, Option.bind_some]
  rw [hslug, hteam]
  rfl

end GhReport.Report
