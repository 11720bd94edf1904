import GhReport.Domain.Types
import GhReport.Library.Effect
import GhReport.Library.KeyMap
import Mathlib.Data.List.Sort

/-! # The admitted inventory

A listing is deduplicated, sorted and capped. It carries the authority to delete
only when it is complete, was not capped and is not empty.
-/

namespace GhReport.Inventory

open Domain

/-- Why no inventory could be built. -/
inductive InventoryError where
  | apiFetchFailed (reason : String)
deriving DecidableEq

inductive InventoryValidationError where
  | identityConflict (identityKey firstId secondId : String)
  | payloadMismatch (repoId field : String)
deriving DecidableEq

def InventoryError.ofValidation : InventoryValidationError → InventoryError
  | .identityConflict identityKey firstId secondId =>
    .apiFetchFailed ("inventory identity conflict on '" ++ identityKey ++ "': repo '" ++ firstId ++
      "' vs '" ++ secondId ++ "'")
  | .payloadMismatch repoId field =>
    .apiFetchFailed ("inventory payload conflict for repo '" ++ repoId ++ "' on field '" ++ field ++
      "'")

/-- The listing as it was fetched. -/
structure InventoryPayload where
  repositories : List Repository
  complete : Bool
  inventoryFetchedAt : Option String

/-! ## Duplicates -/

/-- The first field, in this order, on which two repositories differ. -/
def findPayloadDifference (a b : Repository) : Option String :=
  let differences :=
    [ ("id", a.id != b.id), ("node_id", a.nodeId != b.nodeId), ("name", a.name != b.name),
      ("visibility", a.visibility != b.visibility), ("language", a.language != b.language),
      ("default_branch", a.defaultBranch != b.defaultBranch),
      ("archived", a.archived != b.archived),
      ("inventory_key", a.inventoryKey != b.inventoryKey),
      ("updated_at", a.updatedAt != b.updatedAt), ("has_issues", a.hasIssues != b.hasIssues),
      ("pushed_at", a.pushedAt != b.pushedAt), ("created_at", a.createdAt != b.createdAt),
      ("description", a.description != b.description), ("fork", a.fork != b.fork),
      ("is_empty", a.isEmpty != b.isEmpty), ("html_url", a.htmlUrl != b.htmlUrl),
      ("topics", a.topics != b.topics), ("license_spdx", a.licenseSpdx != b.licenseSpdx) ]
  (differences.find? Prod.snd).map Prod.fst

/-- The comparison covers every field. -/
theorem eq_of_findPayloadDifference {a b : Repository} (h : findPayloadDifference a b = none) :
    a = b := by
  simp only [findPayloadDifference, Option.map_eq_none_iff, List.find?_eq_none, List.mem_cons,
    List.not_mem_nil, or_false, forall_eq_or_imp, forall_eq, bne_iff_ne, ne_eq,
    not_not] at h
  cases a
  cases b
  simp only [Repository.mk.injEq]
  exact h

/-- Repositories seen so far, with the index of each identifier and each inventory key. -/
structure Deduplicated where
  uniqueRepos : List Repository
  idMap : KeyMap ℕ
  keyMap : KeyMap ℕ

namespace Deduplicated

def empty : Deduplicated := ⟨[], ∅, ∅⟩

/-- Both maps index the repositories, and the inventory keys are distinct. -/
structure Valid (d : Deduplicated) : Prop where
  id : ∀ (id : String) i, d.idMap[id]? = some i → ∃ r, d.uniqueRepos[i]? = some r ∧ r.id = id
  key : ∀ (key : String) i, d.keyMap[key]? = some i →
    ∃ r, d.uniqueRepos[i]? = some r ∧ r.inventoryKey = key
  indexed : ∀ r ∈ d.uniqueRepos, d.keyMap[r.inventoryKey]? ≠ none
  distinct : (d.uniqueRepos.map Repository.inventoryKey).Nodup

variable (d : Deduplicated)

/-- One identity of the incoming repository: it must not match a second known repository. -/
def matchIdentity (matchedIndex : Option ℕ) (m : Option ℕ × String) :
    Except InventoryValidationError (Option ℕ) :=
  match m.1, matchedIndex with
  | none, _ => .ok matchedIndex
  | some idx, none => .ok (some idx)
  | some idx, some priorIdx =>
    if priorIdx ≠ idx then
      .error (.identityConflict m.2 ((d.uniqueRepos[priorIdx]?.map Repository.id).getD "")
        ((d.uniqueRepos[idx]?.map Repository.id).getD ""))
    else .ok matchedIndex

/-- Add a repository, or accept it as an exact repetition of a known one. -/
def step (repo : Repository) : Except InventoryValidationError Deduplicated := do
  let matchedIndex ← [(d.idMap[repo.id]?, "id"), (d.keyMap[repo.inventoryKey]?, "inventory_key")]
    |>.foldlM d.matchIdentity none
  match matchedIndex.bind (fun idx => d.uniqueRepos[idx]?) with
  | some existing =>
    match findPayloadDifference repo existing with
    | some field => .error (.payloadMismatch repo.id field)
    | none => .ok d
  | none =>
    let idx := d.uniqueRepos.length
    .ok ⟨d.uniqueRepos ++ [repo], d.idMap.insert repo.id idx, d.keyMap.insert repo.inventoryKey idx⟩

variable {d : Deduplicated} {d' : Deduplicated} {repo : Repository}

theorem Valid.empty : empty.Valid := by
  constructor
  · intro id i h
    simp [Deduplicated.empty] at h
  · intro key i h
    simp [Deduplicated.empty] at h
  · intro r hr
    cases hr
  · exact List.nodup_nil

/-- The matched index comes from one of the two maps; nothing matched means neither has one. -/
theorem matchIdentity_ok {matchId matchKey : Option ℕ} (labels : String × String)
    {matched : Option ℕ}
    (h : [(matchId, labels.1), (matchKey, labels.2)].foldlM d.matchIdentity none = .ok matched) :
    (matched = none → matchId = none ∧ matchKey = none) ∧
      ∀ i, matched = some i → matchId = some i ∨ matchKey = some i := by
  rcases matchId with _ | i <;> rcases matchKey with _ | j
  · cases h
    simp
  · cases h
    simp
  · cases h
    simp
  · simp only [List.foldlM_cons, List.foldlM_nil, matchIdentity, bind, Except.bind, pure,
      Except.pure, ne_eq, ite_not] at h
    by_cases hij : i = j
    · rw [if_pos hij] at h
      cases h
      simp
    · rw [if_neg hij] at h
      cases h

/-- A repository is repeated exactly, or new under both of its identities. -/
theorem Valid.step_ok (hd : d.Valid) (h : d.step repo = .ok d') :
    repo ∈ d.uniqueRepos ∧ d' = d ∨
      d.keyMap[repo.inventoryKey]? = none ∧
        d' = ⟨d.uniqueRepos ++ [repo], d.idMap.insert repo.id d.uniqueRepos.length,
          d.keyMap.insert repo.inventoryKey d.uniqueRepos.length⟩ := by
  unfold step at h
  obtain ⟨matched, hmatched, h⟩ := Except.bind_eq_ok_iff.mp h
  obtain ⟨hnone, hsome⟩ := matchIdentity_ok ("id", "inventory_key") hmatched
  cases matched with
  | none =>
    cases h
    exact .inr ⟨(hnone rfl).2, rfl⟩
  | some i =>
    left
    obtain ⟨existing, hexisting⟩ : ∃ existing, d.uniqueRepos[i]? = some existing := by
      rcases hsome i rfl with hi | hi
      · exact (hd.id _ _ hi).imp fun _ hr => hr.1
      · exact (hd.key _ _ hi).imp fun _ hr => hr.1
    simp only [Option.bind_some, hexisting] at h
    split at h
    · cases h
    · next hdiff =>
      cases h
      rw [eq_of_findPayloadDifference hdiff]
      exact ⟨List.mem_of_getElem? hexisting, rfl⟩

theorem Valid.push (hd : d.Valid) (hkey : d.keyMap[repo.inventoryKey]? = none) :
    Valid ⟨d.uniqueRepos ++ [repo], d.idMap.insert repo.id d.uniqueRepos.length,
      d.keyMap.insert repo.inventoryKey d.uniqueRepos.length⟩ := by
  have hold : ∀ {i : ℕ} {r}, d.uniqueRepos[i]? = some r →
      (d.uniqueRepos ++ [repo])[i]? = some r := by
    intro i r hr
    rw [List.getElem?_append_left (List.getElem?_eq_some_iff.mp hr).1, hr]
  have hnew : (d.uniqueRepos ++ [repo])[d.uniqueRepos.length]? = some repo := by
    rw [List.getElem?_append_right le_rfl, Nat.sub_self, List.getElem?_cons_zero]
  constructor
  · intro id i hi
    rw [KeyMap.getElem?_insert] at hi
    split at hi
    · next e =>
      cases hi
      exact ⟨repo, hnew, e⟩
    · obtain ⟨r, hr, hrid⟩ := hd.id id i hi
      exact ⟨r, hold hr, hrid⟩
  · intro key i hi
    rw [KeyMap.getElem?_insert] at hi
    split at hi
    · next e =>
      cases hi
      exact ⟨repo, hnew, e⟩
    · obtain ⟨r, hr, hrkey⟩ := hd.key key i hi
      exact ⟨r, hold hr, hrkey⟩
  · intro r hr
    rw [KeyMap.getElem?_insert]
    split
    · simp
    · next hne =>
      rcases List.mem_append.mp hr with hr | hr
      · exact hd.indexed r hr
      · obtain rfl := List.mem_singleton.mp hr
        exact absurd rfl hne
  · rw [List.map_append, List.nodup_append]
    refine ⟨hd.distinct, List.nodup_singleton _, ?_⟩
    rintro key hmem _ hrepo rfl
    obtain ⟨r, hr, rfl⟩ := List.mem_map.mp hmem
    obtain hsame : r.inventoryKey = repo.inventoryKey := List.mem_singleton.mp hrepo
    exact hd.indexed r hr (hsame ▸ hkey)

/-- After a listing, the repositories kept are those of the listing. -/
theorem Valid.foldlM_ok (hd : d.Valid) {repos : List Repository}
    (h : repos.foldlM step d = .ok d') :
    d'.Valid ∧ ∀ r, r ∈ d'.uniqueRepos ↔ r ∈ d.uniqueRepos ∨ r ∈ repos := by
  induction repos generalizing d with
  | nil =>
    cases h
    simp [hd]
  | cons repo repos ih =>
    rw [List.foldlM_cons] at h
    obtain ⟨d₁, hstep, hrest⟩ := Except.bind_eq_ok_iff.mp h
    rcases hd.step_ok hstep with ⟨hmem, rfl⟩ | ⟨hkey, rfl⟩
    · obtain ⟨hvalid, hiff⟩ := ih hd hrest
      refine ⟨hvalid, fun r => ?_⟩
      rw [hiff, List.mem_cons]
      constructor
      · rintro (hr | hr)
        · exact .inl hr
        · exact .inr (.inr hr)
      · rintro (hr | rfl | hr)
        · exact .inl hr
        · exact .inl hmem
        · exact .inr hr
    · obtain ⟨hvalid, hiff⟩ := ih (hd.push hkey) hrest
      refine ⟨hvalid, fun r => ?_⟩
      rw [hiff, List.mem_append, List.mem_singleton, List.mem_cons, or_assoc]

end Deduplicated

def validateAndDeduplicateRepositories (repositories : List Repository) :
    Except InventoryValidationError (List Repository) :=
  (repositories.foldlM Deduplicated.step .empty).map Deduplicated.uniqueRepos

/-- A listing that validates keeps each of its repositories once, under distinct keys. -/
theorem validateAndDeduplicate_ok {repositories unique : List Repository}
    (h : validateAndDeduplicateRepositories repositories = .ok unique) :
    (unique.map Repository.inventoryKey).Nodup ∧ ∀ r, r ∈ unique ↔ r ∈ repositories := by
  unfold validateAndDeduplicateRepositories at h
  cases hd : repositories.foldlM Deduplicated.step .empty with
  | error e =>
    rw [hd] at h
    cases h
  | ok d =>
    rw [hd] at h
    cases h
    obtain ⟨hvalid, hiff⟩ := Deduplicated.Valid.empty.foldlM_ok hd
    refine ⟨hvalid.distinct, fun r => ?_⟩
    rw [hiff]
    simp [Deduplicated.empty]

/-! ## Admission -/

/-- A listing without duplicates, before its size is bounded. -/
structure ValidatedInventory where
  activeRepos : List Repository
  complete : Bool
  inventoryFetchedAt : Option String
  totalDiscovered : ℕ
  archivedDiscovered : UInt32

def ValidatedInventory.fromPayload (payload : InventoryPayload) :
    Except InventoryError ValidatedInventory := do
  let activeRepos ←
    (validateAndDeduplicateRepositories payload.repositories).mapError InventoryError.ofValidation
  let archived := (activeRepos.filter Repository.archived).length
  .ok {
    activeRepos := activeRepos
    complete := payload.complete
    inventoryFetchedAt := payload.inventoryFetchedAt
    totalDiscovered := activeRepos.length
    archivedDiscovered := UInt32.ofNat (min archived (2 ^ 32 - 1)) }

/-- A bound on the repositories of a run. -/
abbrev MaxRepos := { n : ℕ // n ≠ 0 }

/-- The inventory that a run works from. -/
structure AdmittedInventory where
  activeRepos : List Repository
  complete : Bool
  inventoryFetchedAt : Option String
  isCapped : Bool
  totalDiscovered : ℕ
  archivedDiscovered : UInt32

/-- Sort by identifier, and keep at most `maxRepos`. -/
def boundActiveRepositories (v : ValidatedInventory) (maxRepos : MaxRepos) : AdmittedInventory :=
  let isCapped := v.totalDiscovered > maxRepos.val
  let sorted := v.activeRepos.insertionSort fun a b => a.id ≤ b.id
  { activeRepos := if isCapped then sorted.take maxRepos.val else sorted
    complete := v.complete
    inventoryFetchedAt := v.inventoryFetchedAt
    isCapped := isCapped
    totalDiscovered := v.totalDiscovered
    archivedDiscovered := v.archivedDiscovered }

/-- The keys that a reconciliation keeps. -/
structure DeletionAuthority where
  activeKeys : List String

def AdmittedInventory.deletionAuthority (inventory : AdmittedInventory) :
    Option DeletionAuthority :=
  if !inventory.complete || inventory.isCapped || inventory.activeRepos.isEmpty then none
  else some ⟨inventory.activeRepos.map Repository.inventoryKey⟩

def DeletionAuthority.contains (authority : DeletionAuthority) (key : String) : Bool :=
  authority.activeKeys.contains key

/-- Authority comes from a complete listing within the bound, and covers all of its keys. -/
theorem deletionAuthority_bound {v : ValidatedInventory} {maxRepos : MaxRepos}
    {authority : DeletionAuthority}
    (h : (boundActiveRepositories v maxRepos).deletionAuthority = some authority) :
    v.complete = true ∧ v.totalDiscovered ≤ maxRepos.val ∧
      ∀ r ∈ v.activeRepos, authority.contains r.inventoryKey = true := by
  rw [AdmittedInventory.deletionAuthority] at h
  split at h
  · cases h
  · next hguard =>
    cases h
    simp only [boundActiveRepositories, gt_iff_lt, Bool.or_eq_true, Bool.not_eq_true',
      decide_eq_true_eq, not_or, Bool.not_eq_false, not_lt] at hguard
    obtain ⟨⟨hcomplete, hbound⟩, -⟩ := hguard
    refine ⟨hcomplete, hbound, fun r hr => ?_⟩
    simp only [DeletionAuthority.contains, boundActiveRepositories, List.contains_iff_mem,
      gt_iff_lt, if_neg (Nat.not_lt.mpr hbound)]
    exact List.mem_map_of_mem ((List.mem_insertionSort _).mpr hr)

end GhReport.Inventory
