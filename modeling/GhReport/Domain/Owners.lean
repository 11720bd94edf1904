import GhReport.Domain.Types
import GhReport.Library.KeyMap
import GhReport.Library.Tally
import Mathlib.Data.List.Sort

/-! # Owners

The repositories of each owner named in CODEOWNERS, and the teams among the
owners. Owners are the same when they agree in lowercase.
-/

namespace GhReport.Domain

section Owners

variable (toLowercase : String → String)

/-- Repositories by lowercase owner, each with the owner as it was first spelled. -/
abbrev OwnerRepoMap := KeyMap (String × List RepositoryEvidence)

def OwnerRepoMap.push (m : OwnerRepoMap) (repo : RepositoryEvidence) (owner : String) :
    OwnerRepoMap :=
  let key := toLowercase owner
  let entry := m[key]?.getD (owner, [])
  m.insert key (entry.1, entry.2 ++ [repo])

def OwnerRepoMap.pushRepo (m : OwnerRepoMap) (repo : RepositoryEvidence) : OwnerRepoMap :=
  match repo.checks.codeowners.parsed with
  | none => m
  | some parsed => parsed.uniqueOwners.foldl (fun m owner => m.push toLowercase repo owner) m

def buildOwnerRepoMap (repositories : List RepositoryEvidence) : OwnerRepoMap :=
  (repositories.filter fun r => !r.repository.archived).foldl (OwnerRepoMap.pushRepo toLowercase) ∅

/-- The teams among the owners, each with its slug. -/
def teamOwnerSlugs (repositories : List RepositoryEvidence) : List (String × String) :=
  let pairs := (buildOwnerRepoMap toLowercase repositories).keys.filterMap fun canonical =>
    (teamSlugFromCanonicalOwner canonical).map fun slug => (canonical, slug)
  pairs.insertionSort fun a b => a.1 < b.1 ∨ a.1 = b.1 ∧ a.2 ≤ b.2

/-! ## The repositories of an owner -/

/-- How often a repository lists the owner, whatever the case of its letters. -/
def mentions (owner : String) (repo : RepositoryEvidence) : ℕ :=
  match repo.checks.codeowners.parsed with
  | none => 0
  | some parsed => parsed.uniqueOwners.countP fun listed => toLowercase listed = owner

namespace OwnerRepoMap

def reposOf (m : OwnerRepoMap) (owner : String) : List RepositoryEvidence :=
  (m[owner]?.map Prod.snd).getD []

variable (m : OwnerRepoMap) (repo : RepositoryEvidence) (owner : String)

theorem reposOf_push (listed : String) : (m.push toLowercase repo listed).reposOf owner =
    if toLowercase listed = owner then m.reposOf owner ++ [repo] else m.reposOf owner := by
  unfold push reposOf
  dsimp only
  rw [KeyMap.getElem?_insert]
  split
  · next h =>
    subst h
    cases m[toLowercase listed]? <;> rfl
  · rfl

/-- Every mention of the owner pushes the repository once more. -/
theorem reposOf_pushRepo : (m.pushRepo toLowercase repo).reposOf owner =
    m.reposOf owner ++ List.replicate (mentions toLowercase owner repo) repo := by
  unfold pushRepo mentions
  cases repo.checks.codeowners.parsed with
  | none => exact (List.append_nil _).symm
  | some parsed =>
    dsimp only
    induction parsed.uniqueOwners generalizing m with
    | nil => exact (List.append_nil _).symm
    | cons listed owners ih =>
      rw [List.foldl_cons, ih, reposOf_push, List.countP_cons]
      by_cases h : toLowercase listed = owner
      · rw [if_pos h, if_pos (decide_eq_true h), List.replicate_succ, List.append_assoc,
          List.singleton_append]
      · rw [if_neg h, if_neg (by simp [h]), Nat.add_zero]

end OwnerRepoMap

theorem reposOf_buildOwnerRepoMap (repositories : List RepositoryEvidence) (owner : String) :
    (buildOwnerRepoMap toLowercase repositories).reposOf owner =
      Tally.repeated (mentions toLowercase owner)
        (repositories.filter fun r => !r.repository.archived) := by
  have hfold : ∀ (l : List RepositoryEvidence) (m : OwnerRepoMap),
      (l.foldl (OwnerRepoMap.pushRepo toLowercase) m).reposOf owner =
        m.reposOf owner ++ Tally.repeated (mentions toLowercase owner) l := by
    intro l
    induction l with
    | nil => exact fun m => (List.append_nil _).symm
    | cons repo l ih =>
      intro m
      rw [List.foldl_cons, ih, OwnerRepoMap.reposOf_pushRepo, Tally.repeated_cons,
        List.append_assoc]
  exact hfold _ ∅

/-- A condition on the entries that a push keeps holds of the whole map. -/
theorem all_buildOwnerRepoMap {P : String → String × List RepositoryEvidence → Prop}
    (hpush : ∀ (m : OwnerRepoMap) (repo : RepositoryEvidence) (owner : String),
      KeyMap.All P m → KeyMap.All P (m.push toLowercase repo owner))
    (repositories : List RepositoryEvidence) :
    KeyMap.All P (buildOwnerRepoMap toLowercase repositories) := by
  have hrepo : ∀ (m : OwnerRepoMap) (repo : RepositoryEvidence),
      KeyMap.All P m → KeyMap.All P (m.pushRepo toLowercase repo) := by
    intro m repo h
    unfold OwnerRepoMap.pushRepo
    cases repo.checks.codeowners.parsed with
    | none => exact h
    | some parsed =>
      dsimp only
      induction parsed.uniqueOwners generalizing m with
      | nil => exact h
      | cons owner owners ih => exact ih _ (hpush m repo owner h)
  have hfold : ∀ (l : List RepositoryEvidence) (m : OwnerRepoMap),
      KeyMap.All P m → KeyMap.All P (l.foldl (OwnerRepoMap.pushRepo toLowercase) m) := by
    intro l
    induction l with
    | nil => exact fun m h => h
    | cons repo l ih => exact fun m h => ih _ (hrepo m repo h)
  exact hfold _ ∅ KeyMap.All.empty

/-- An owner is in the map only for a repository that lists it. -/
theorem buildOwnerRepoMap_nonempty (repositories : List RepositoryEvidence) :
    KeyMap.All (fun _ entry => entry.2 ≠ []) (buildOwnerRepoMap toLowercase repositories) := by
  apply all_buildOwnerRepoMap
  intro m repo owner h
  exact h.insert (List.append_ne_nil_of_right_ne_nil _ (List.cons_ne_nil _ _))

/-- The spelling that the map keeps of an owner is one of that owner. -/
theorem buildOwnerRepoMap_spelled (repositories : List RepositoryEvidence) :
    KeyMap.All (fun key entry => toLowercase entry.1 = key)
      (buildOwnerRepoMap toLowercase repositories) := by
  apply all_buildOwnerRepoMap
  intro m repo owner h
  apply h.insert
  cases hkey : m[toLowercase owner]? with
  | none => rfl
  | some entry =>
    have hspelled : toLowercase entry.1 = toLowercase owner := h _ _ hkey
    exact hspelled

theorem buildOwnerRepoMap_eq_none_iff (repositories : List RepositoryEvidence) (owner : String) :
    (buildOwnerRepoMap toLowercase repositories)[owner]? = none ↔
      (buildOwnerRepoMap toLowercase repositories).reposOf owner = [] := by
  unfold OwnerRepoMap.reposOf
  cases h : (buildOwnerRepoMap toLowercase repositories)[owner]? with
  | none => exact iff_of_true rfl rfl
  | some entry =>
    exact iff_of_false nofun (buildOwnerRepoMap_nonempty toLowercase repositories owner entry h)

end Owners

/-- A lowercase that is made of the letters of ASCII alone. -/
def asciiLowercase (text : String) : String := String.ofList (text.toList.map Char.toLower)

end GhReport.Domain
