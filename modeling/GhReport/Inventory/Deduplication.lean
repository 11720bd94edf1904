import GhReport.Inventory.Admitted

/-! # Deduplication

A listing is accepted when no two of its entries share an identity and differ.
What is admitted of it depends on its entries only, not on their order and not
on how often they are repeated.
-/

namespace GhReport.Inventory

open Domain

/-- Two entries have the same identifier, or the same inventory key. -/
def SharesIdentity (a b : Repository) : Prop := a.id = b.id ∨ a.inventoryKey = b.inventoryKey

theorem findPayloadDifference_eq_none_iff (a b : Repository) :
    findPayloadDifference a b = none ↔ a = b := by
  refine ⟨eq_of_findPayloadDifference, ?_⟩
  rintro rfl
  simp [findPayloadDifference]

namespace Deduplicated

variable {d d' : Deduplicated} {repo : Repository}

/-- Both maps are the indexes of the repositories. -/
structure Indexed (d : Deduplicated) : Prop where
  id : ∀ (id : String) i, d.idMap[id]? = some i ↔ ∃ r, d.uniqueRepos[i]? = some r ∧ r.id = id
  key : ∀ (key : String) i, d.keyMap[key]? = some i ↔
    ∃ r, d.uniqueRepos[i]? = some r ∧ r.inventoryKey = key

def push (d : Deduplicated) (repo : Repository) : Deduplicated :=
  ⟨d.uniqueRepos ++ [repo], d.idMap.insert repo.id d.uniqueRepos.length,
    d.keyMap.insert repo.inventoryKey d.uniqueRepos.length⟩

theorem Indexed.empty : empty.Indexed := by
  constructor
  · intro id i
    simp [Deduplicated.empty]
  · intro key i
    simp [Deduplicated.empty]

theorem getElem?_concat_eq_some_iff {repos : List Repository} {r : Repository} {i : ℕ} :
    (repos ++ [repo])[i]? = some r ↔ repos[i]? = some r ∨ i = repos.length ∧ r = repo := by
  rw [List.getElem?_append]
  split
  · next hlt =>
    constructor
    · exact .inl
    · rintro (h | ⟨rfl, -⟩)
      · exact h
      · exact absurd hlt (lt_irrefl _)
  · next hge =>
    have hnone : repos[i]? = none := List.getElem?_eq_none (not_lt.mp hge)
    rw [List.getElem?_singleton, hnone]
    split
    · next hzero =>
      have hi : i = repos.length := by omega
      simp [hi, eq_comm]
    · next hzero =>
      have hi : i ≠ repos.length := by omega
      simp [hi]

/-- One index of both kinds: the entry that is added was not there under its name. -/
theorem index_push (name : Repository → String) {index : KeyMap ℕ} {repos : List Repository}
    (hindex : ∀ (key : String) i, index[key]? = some i ↔ ∃ r, repos[i]? = some r ∧ name r = key)
    (hnew : ∀ r ∈ repos, name r ≠ name repo) (key : String) (i : ℕ) :
    (index.insert (name repo) repos.length)[key]? = some i ↔
      ∃ r, (repos ++ [repo])[i]? = some r ∧ name r = key := by
  rw [KeyMap.getElem?_insert]
  simp only [getElem?_concat_eq_some_iff]
  split
  · next hkey =>
    constructor
    · rintro ⟨⟩
      exact ⟨repo, .inr ⟨rfl, rfl⟩, hkey⟩
    · rintro ⟨r, hr | ⟨rfl, rfl⟩, hname⟩
      · exact absurd (hname.trans hkey.symm) (hnew r (List.mem_of_getElem? hr))
      · rfl
  · next hkey =>
    rw [hindex]
    constructor
    · rintro ⟨r, hr, hname⟩
      exact ⟨r, .inl hr, hname⟩
    · rintro ⟨r, hr | ⟨rfl, rfl⟩, hname⟩
      · exact ⟨r, hr, hname⟩
      · exact absurd hname hkey

theorem Indexed.push (hd : d.Indexed) (hnew : ∀ r ∈ d.uniqueRepos, ¬ SharesIdentity r repo) :
    (d.push repo).Indexed where
  id := index_push _ hd.id fun r hr h => hnew r hr (.inl h)
  key := index_push _ hd.key fun r hr h => hnew r hr (.inr h)

/-- An index names each repository once. -/
theorem nodup_of_index {name : Repository → String} {index : KeyMap ℕ} {repos : List Repository}
    (hindex : ∀ (key : String) i, index[key]? = some i ↔ ∃ r, repos[i]? = some r ∧ name r = key) :
    (repos.map name).Nodup := by
  rw [List.nodup_iff_getElem?_ne_getElem?]
  intro i j hij hj hsame
  rw [List.length_map] at hj
  have hi : i < repos.length := hij.trans hj
  rw [List.getElem?_map, List.getElem?_map, List.getElem?_eq_getElem hi,
    List.getElem?_eq_getElem hj] at hsame
  have hname : name repos[i] = name repos[j] := Option.some.inj hsame
  have hindexi := (hindex _ i).mpr ⟨_, List.getElem?_eq_getElem hi, rfl⟩
  have hindexj := (hindex _ j).mpr ⟨_, List.getElem?_eq_getElem hj, rfl⟩
  rw [hname, hindexj] at hindexi
  exact hij.ne' (Option.some.inj hindexi)

/-- What an index does not know is not the name of a repository. -/
theorem ne_of_index_none {name : Repository → String} {index : KeyMap ℕ} {repos : List Repository}
    (hindex : ∀ (key : String) i, index[key]? = some i ↔ ∃ r, repos[i]? = some r ∧ name r = key)
    {key : String} (hnone : index[key]? = none) : ∀ r ∈ repos, name r ≠ key := by
  rintro r hr rfl
  obtain ⟨i, hi⟩ := List.mem_iff_getElem?.mp hr
  rw [(hindex _ i).mpr ⟨r, hi, rfl⟩] at hnone
  cases hnone

/-- A matched entry is compared with the incoming one, which has to repeat it. -/
theorem step_matched {i : ℕ} {existing : Repository} (hexisting : d.uniqueRepos[i]? = some existing)
    (hmatched : [(d.idMap[repo.id]?, "id"), (d.keyMap[repo.inventoryKey]?, "inventory_key")].foldlM
      d.matchIdentity none = .ok (some i)) :
    if repo = existing then d.step repo = .ok d else ∃ e, d.step repo = .error e := by
  unfold step
  rw [hmatched]
  dsimp only [bind, Except.bind, Option.bind_some]
  rw [hexisting]
  dsimp only
  split
  · next h =>
    rw [(findPayloadDifference_eq_none_iff _ _).mpr h]
  · next h =>
    cases hdiff : findPayloadDifference repo existing with
    | none => exact absurd ((findPayloadDifference_eq_none_iff _ _).mp hdiff) h
    | some field => exact ⟨_, rfl⟩

/-- An entry is repeated, is new under both of its identities, or conflicts with a known one. -/
theorem Indexed.step_cases (hd : d.Indexed) (repo : Repository) :
    (repo ∈ d.uniqueRepos ∧ d.step repo = .ok d) ∨
      ((∀ r ∈ d.uniqueRepos, ¬ SharesIdentity r repo) ∧ d.step repo = .ok (d.push repo)) ∨
      (∃ r ∈ d.uniqueRepos, SharesIdentity r repo ∧ r ≠ repo) ∧
        ∃ e, d.step repo = .error e := by
  have hone : ∀ i existing, d.uniqueRepos[i]? = some existing → SharesIdentity existing repo →
      [(d.idMap[repo.id]?, "id"), (d.keyMap[repo.inventoryKey]?, "inventory_key")].foldlM
        d.matchIdentity none = .ok (some i) →
      (repo ∈ d.uniqueRepos ∧ d.step repo = .ok d) ∨
        ((∀ r ∈ d.uniqueRepos, ¬ SharesIdentity r repo) ∧ d.step repo = .ok (d.push repo)) ∨
        (∃ r ∈ d.uniqueRepos, SharesIdentity r repo ∧ r ≠ repo) ∧
          ∃ e, d.step repo = .error e := by
    intro i existing hexisting hshares hmatched
    have hmem := List.mem_of_getElem? hexisting
    have hstep := step_matched hexisting hmatched
    split at hstep
    · next h => exact .inl ⟨h ▸ hmem, hstep⟩
    · next h => exact .inr (.inr ⟨⟨existing, hmem, hshares, Ne.symm h⟩, hstep⟩)
  cases hid : d.idMap[repo.id]? with
  | none =>
    have hnoId := ne_of_index_none hd.id hid
    cases hkey : d.keyMap[repo.inventoryKey]? with
    | none =>
      have hnoKey := ne_of_index_none hd.key hkey
      refine .inr (.inl ⟨?_, ?_⟩)
      · rintro r hr (h | h)
        · exact hnoId r hr h
        · exact hnoKey r hr h
      · unfold step
        rw [hid, hkey]
        rfl
    | some j =>
      obtain ⟨existing, hexisting, hname⟩ := (hd.key _ _).mp hkey
      exact hone j existing hexisting (.inr hname) (by rw [hid, hkey]; rfl)
  | some i =>
    obtain ⟨existing, hexisting, hname⟩ := (hd.id _ _).mp hid
    cases hkey : d.keyMap[repo.inventoryKey]? with
    | none => exact hone i existing hexisting (.inl hname) (by rw [hid, hkey]; rfl)
    | some j =>
      by_cases hij : i = j
      · refine hone i existing hexisting (.inl hname) ?_
        rw [hid, hkey, ← hij]
        simp [matchIdentity, bind, Except.bind, pure, Except.pure]
      · right
        right
        constructor
        · refine ⟨existing, List.mem_of_getElem? hexisting, .inl hname, ?_⟩
          rintro rfl
          rw [(hd.key _ _).mpr ⟨_, hexisting, rfl⟩] at hkey
          exact hij (Option.some.inj hkey)
        · unfold step
          rw [hid, hkey]
          simp [matchIdentity, bind, Except.bind, hij]

/-- A whole listing: its entries are kept, or two of them share an identity and differ. -/
theorem Indexed.foldlM_cases (hd : d.Indexed) (repos : List Repository) :
    (∃ d', repos.foldlM Deduplicated.step d = .ok d' ∧ d'.Indexed ∧
      ∀ r, r ∈ d'.uniqueRepos ↔ r ∈ d.uniqueRepos ++ repos) ∨
      (∃ e, repos.foldlM Deduplicated.step d = .error e) ∧
        ∃ a ∈ d.uniqueRepos ++ repos, ∃ b ∈ repos, SharesIdentity a b ∧ a ≠ b := by
  induction repos generalizing d with
  | nil => exact .inl ⟨d, rfl, hd, by simp⟩
  | cons repo repos ih =>
    rw [List.foldlM_cons]
    rcases hd.step_cases repo with ⟨hmem, hstep⟩ | ⟨hnew, hstep⟩ | ⟨⟨r, hr, hshares, hne⟩, e, hstep⟩
    · rw [hstep]
      rcases ih hd with ⟨d', hrun, hindexed, hiff⟩ | ⟨herror, a, ha, b, hb, hconflict⟩
      · refine .inl ⟨d', hrun, hindexed, fun r => ?_⟩
        rw [hiff, List.mem_append, List.mem_append, List.mem_cons]
        constructor
        · rintro (hr | hr)
          · exact .inl hr
          · exact .inr (.inr hr)
        · rintro (hr | rfl | hr)
          · exact .inl hr
          · exact .inl hmem
          · exact .inr hr
      · refine .inr ⟨herror, a, ?_, b, List.mem_cons_of_mem _ hb, hconflict⟩
        rw [List.mem_append] at ha ⊢
        exact ha.imp_right (List.mem_cons_of_mem _)
    · rw [hstep]
      have happend : (d.push repo).uniqueRepos ++ repos = d.uniqueRepos ++ repo :: repos :=
        List.append_assoc ..
      rcases ih (hd.push hnew) with ⟨d', hrun, hindexed, hiff⟩ | ⟨herror, a, ha, b, hb, hconflict⟩
      · rw [happend] at hiff
        exact .inl ⟨d', hrun, hindexed, hiff⟩
      · rw [happend] at ha
        exact .inr ⟨herror, a, ha, b, List.mem_cons_of_mem _ hb, hconflict⟩
    · rw [hstep]
      exact .inr ⟨⟨e, rfl⟩, r, List.mem_append_left _ hr, repo, List.mem_cons_self .., hshares, hne⟩

end Deduplicated

/-! ## Listings -/

section Listings

variable {repositories unique : List Repository}

theorem validateAndDeduplicate_cases (repositories : List Repository) :
    (∃ unique, validateAndDeduplicateRepositories repositories = .ok unique ∧
      (unique.map Repository.id).Nodup ∧ (unique.map Repository.inventoryKey).Nodup ∧
      ∀ r, r ∈ unique ↔ r ∈ repositories) ∨
      (∃ e, validateAndDeduplicateRepositories repositories = .error e) ∧
        ∃ a ∈ repositories, ∃ b ∈ repositories, SharesIdentity a b ∧ a ≠ b := by
  unfold validateAndDeduplicateRepositories
  rcases Deduplicated.Indexed.empty.foldlM_cases repositories with
    ⟨d, hrun, hindexed, hiff⟩ | ⟨⟨e, hrun⟩, hconflict⟩
  · rw [hrun]
    exact .inl ⟨_, rfl, Deduplicated.nodup_of_index hindexed.id,
      Deduplicated.nodup_of_index hindexed.key, hiff⟩
  · rw [hrun]
    exact .inr ⟨⟨e, rfl⟩, hconflict⟩

theorem validateAndDeduplicate_nodup
    (h : validateAndDeduplicateRepositories repositories = .ok unique) :
    (unique.map Repository.id).Nodup ∧ (unique.map Repository.inventoryKey).Nodup ∧
      ∀ r, r ∈ unique ↔ r ∈ repositories := by
  rcases validateAndDeduplicate_cases repositories with ⟨unique', h', hspec⟩ | ⟨⟨e, h'⟩, -⟩
  · rw [h] at h'
    cases h'
    exact hspec
  · rw [h] at h'
    cases h'

/-- Entries of an accepted listing that share an identity are the same. -/
theorem eq_of_sharesIdentity (h : validateAndDeduplicateRepositories repositories = .ok unique)
    {a b : Repository} (ha : a ∈ repositories) (hb : b ∈ repositories) (hab : SharesIdentity a b) :
    a = b := by
  obtain ⟨hid, hkey, hiff⟩ := validateAndDeduplicate_nodup h
  rcases hab with hab | hab
  · exact List.inj_on_of_nodup_map hid ((hiff a).mpr ha) ((hiff b).mpr hb) hab
  · exact List.inj_on_of_nodup_map hkey ((hiff a).mpr ha) ((hiff b).mpr hb) hab

theorem accepts_iff (repositories : List Repository) :
    (∃ unique, validateAndDeduplicateRepositories repositories = .ok unique) ↔
      ∀ a ∈ repositories, ∀ b ∈ repositories, SharesIdentity a b →
        findPayloadDifference a b = none := by
  simp only [findPayloadDifference_eq_none_iff]
  constructor
  · rintro ⟨unique, h⟩ a ha b hb hab
    exact eq_of_sharesIdentity h ha hb hab
  · intro hagree
    rcases validateAndDeduplicate_cases repositories with
      ⟨unique, h, -⟩ | ⟨-, a, ha, b, hb, hab, hne⟩
    · exact ⟨unique, h⟩
    · exact absurd (hagree a ha b hb hab) hne

end Listings

/-! ## Admission -/

/-- What is admitted of a payload, if it validates. -/
def admitted (payload : InventoryPayload) (maxRepos : MaxRepos) : Option AdmittedInventory :=
  (ValidatedInventory.fromPayload payload).toOption.map fun v => boundActiveRepositories v maxRepos

/-- Sorting by identifiers that are distinct leaves no choice. -/
theorem insertionSort_eq_of_perm {repos repos' : List Repository} (hperm : repos.Perm repos')
    (hnodup : (repos.map Repository.id).Nodup) :
    repos.insertionSort (fun a b => a.id ≤ b.id) = repos'.insertionSort fun a b => a.id ≤ b.id := by
  have htotal : Std.Total fun a b : Repository => a.id ≤ b.id := ⟨fun _ _ => String.le_total ..⟩
  have htrans : IsTrans Repository fun a b => a.id ≤ b.id := ⟨fun _ _ _ => String.le_trans⟩
  refine List.Perm.eq_of_pairwise ?_ (List.pairwise_insertionSort ..)
    (List.pairwise_insertionSort ..) ?_
  · intro a b ha hb hab hba
    have ha := (List.mem_insertionSort _).mp ha
    have hb := hperm.mem_iff.mpr ((List.mem_insertionSort _).mp hb)
    exact List.inj_on_of_nodup_map hnodup ha hb (String.le_antisymm hab hba)
  · exact (List.perm_insertionSort ..).trans (hperm.trans (List.perm_insertionSort ..).symm)

/-- The order and the repetitions of a payload do not show in what is admitted. -/
theorem admitted_congr (payload payload' : InventoryPayload)
    (hrepos : ∀ r, r ∈ payload.repositories ↔ r ∈ payload'.repositories)
    (hcomplete : payload.complete = payload'.complete)
    (hfetched : payload.inventoryFetchedAt = payload'.inventoryFetchedAt) (maxRepos : MaxRepos) :
    admitted payload maxRepos = admitted payload' maxRepos := by
  unfold admitted ValidatedInventory.fromPayload
  rcases validateAndDeduplicate_cases payload.repositories with
    ⟨unique, h, hid, -, hiff⟩ | ⟨⟨e, h⟩, a, ha, b, hb, hab, hne⟩
  · have haccepts : ∃ unique', validateAndDeduplicateRepositories payload'.repositories =
        .ok unique' := by
      rw [accepts_iff]
      intro a ha b hb hab
      exact (accepts_iff _).mp ⟨unique, h⟩ a ((hrepos a).mpr ha) b ((hrepos b).mpr hb) hab
    obtain ⟨unique', h'⟩ := haccepts
    obtain ⟨hid', -, hiff'⟩ := validateAndDeduplicate_nodup h'
    have hperm : unique.Perm unique' := by
      rw [List.perm_ext_iff_of_nodup hid.of_map hid'.of_map]
      intro r
      rw [hiff, hiff', hrepos]
    have hsort := insertionSort_eq_of_perm hperm hid
    have hlength := hperm.length_eq
    have harchived := (hperm.filter Repository.archived).length_eq
    rw [h, h']
    simp only [Except.mapError, bind, Except.bind, Except.toOption, Option.map_some,
      boundActiveRepositories, hsort, hlength, harchived, hcomplete, hfetched]
  · have hrejects : ¬ ∃ unique', validateAndDeduplicateRepositories payload'.repositories =
        .ok unique' := by
      rintro ⟨unique', h'⟩
      exact hne (eq_of_sharesIdentity h' ((hrepos a).mp ha) ((hrepos b).mp hb) hab)
    cases h' : validateAndDeduplicateRepositories payload'.repositories with
    | ok unique' => exact absurd ⟨unique', h'⟩ hrejects
    | error e' =>
      rw [h]
      rfl

/--
A listing is accepted when entries that share an identity agree, keeps each of its entries once
under distinct identities, and is admitted alike in every order and with every repetition.
-/
theorem validateAndDeduplicate_spec (repositories : List Repository) :
    ((∃ unique, validateAndDeduplicateRepositories repositories = .ok unique) ↔
      ∀ a ∈ repositories, ∀ b ∈ repositories, (a.id = b.id ∨ a.inventoryKey = b.inventoryKey) →
        findPayloadDifference a b = none) ∧
    (∀ unique, validateAndDeduplicateRepositories repositories = .ok unique →
      (unique.map Repository.id).Nodup ∧ (unique.map Repository.inventoryKey).Nodup ∧
      ∀ r, unique.count r = if r ∈ repositories then 1 else 0) ∧
    ∀ (repositories' : List Repository), (∀ r, r ∈ repositories' ↔ r ∈ repositories) →
      ∀ (complete : Bool) (inventoryFetchedAt : Option String) (maxRepos : MaxRepos),
        admitted ⟨repositories', complete, inventoryFetchedAt⟩ maxRepos =
          admitted ⟨repositories, complete, inventoryFetchedAt⟩ maxRepos := by
  refine ⟨accepts_iff repositories, fun unique h => ?_, fun repositories' hsame complete fetched
    maxRepos => admitted_congr ⟨repositories', complete, fetched⟩ ⟨repositories, complete, fetched⟩
      hsame rfl rfl maxRepos⟩
  obtain ⟨hid, hkey, hiff⟩ := validateAndDeduplicate_nodup h
  refine ⟨hid, hkey, fun r => ?_⟩
  rw [hid.of_map.count]
  exact if_congr (hiff r) rfl rfl

end GhReport.Inventory
