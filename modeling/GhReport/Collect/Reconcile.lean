import GhReport.Collect.Sweep
import GhReport.Publication.Continuity

/-! # What a reconciliation deletes

Deletions need a complete listing within the bound of the run, and spare every
key of it. They are computed against the projection of the time, which holds
what other writers recorded after the listing was fetched.
-/

namespace GhReport.Collect

open Domain Projection App Inventory GitHub

/-! ## Authority -/

section Authority

variable {S : Source}

/-- The next mark of the run is on this key. -/
def Sweep.Marks (s : Sweep S) (run : SweepRun S) (key : String) : Prop :=
  ∃ name rest attempt, s.phase = .reconciling run ((key, name) :: rest) attempt

/-- The listing authorises the deletion of the key. -/
def SweepRun.Authorises (run : SweepRun S) (key : String) : Prop :=
  ∃ authority, run.admitted.deletionAuthority = some authority ∧ authority.contains key = false

def SweepPhase.Authorised : SweepPhase S → Prop
  | .reconciling run disappeared _ => ∀ entry ∈ disappeared, run.Authorises entry.1
  | _ => True

theorem SweepRun.mem_disappeared {run : SweepRun S} {p : EvidenceProjection}
    {entry : String × String} (h : entry ∈ run.disappeared p) :
    run.Authorises entry.1 ∧ entry ∈ keyNameSnapshot p := by
  unfold disappeared at h
  split at h
  · cases h
  · next authority hauthority =>
    obtain ⟨hmem, hcontains⟩ := List.mem_filter.mp h
    exact ⟨⟨authority, hauthority, by simpa using hcontains⟩, hmem⟩

theorem authorised_step {R : Runtime} (s : Sweep S) (i : SweepInput) (h : s.phase.Authorised) :
    ((machine R S).step s i).2.phase.Authorised := by
  have hturns := turns_step (R := R) s i
  generalize ((machine R S).step s i).2.phase = phase at hturns
  cases hturns with
  | same => exact h
  | ended => trivial
  | loaded _ _ => trivial
  | reconciled _ => exact fun entry hentry => (SweepRun.mem_disappeared hentry).1
  | marked hphase =>
    rw [hphase] at h
    exact fun entry hentry => h entry (List.mem_cons_of_mem _ hentry)
  | retried hphase =>
    rw [hphase] at h
    exact h

/-- An authorised deletion spares every key of the listing. -/
theorem SweepRun.Authorises.not_lists {run : SweepRun S} {key : String}
    (h : run.Authorises key) : ¬ run.Lists key := by
  obtain ⟨authority, hauthority, hcontains⟩ := h
  intro hlists
  obtain ⟨r, hr, rfl⟩ := List.mem_map.mp hlists
  rw [(deletionAuthority_bound hauthority).2.2 r hr] at hcontains
  cases hcontains

/-- Authority comes from a listing that ended naturally, within the bound of the run. -/
theorem SweepRun.Authorises.complete {run : SweepRun S} {key : String}
    (h : run.Authorises key) :
    ∃ repositories, S.ListedRepositories run.inventory.env repositories ∧
      (repositories.map GhRepository.toRepository).dedup.length ≤ run.inventory.maxRepos.val ∧
      ∀ r ∈ repositories, r.inventoryKey ≠ key := by
  obtain ⟨authority, hauthority, -⟩ := id h
  obtain ⟨hcomplete, hbound, -⟩ := deletionAuthority_bound hauthority
  obtain ⟨repositories, hlisted, htotal, hnodup, hmem⟩ :=
    Source.loadActiveRepositories_complete run.inventory.loaded hcomplete
  refine ⟨repositories, hlisted, ?_, ?_⟩
  · have hperm : (repositories.map GhRepository.toRepository).dedup.Perm
        run.inventory.validated.activeRepos := by
      rw [List.perm_ext_iff_of_nodup (List.nodup_dedup _) hnodup.of_map]
      intro r
      rw [List.mem_dedup, hmem]
    rw [hperm.length_eq, ← htotal]
    exact hbound
  · rintro r hr rfl
    apply h.not_lists
    exact List.mem_map.mpr ⟨r.toRepository, (hmem _).mpr (List.mem_map_of_mem hr), rfl⟩

/--
Only a complete listing deletes: over every run, a mark on a key comes from a listing that ended
naturally, within the bound, and without the key. Every listing comes to an end.
-/
theorem only_complete_listing_deletes (R : Runtime) (S : Source) (app : AppState)
    (is : List SweepInput) {run : SweepRun S} {key : String}
    (h : ((machine R S).after ⟨app, .idle⟩ is).Marks run key) :
    (∃ repositories, S.ListedRepositories run.inventory.env repositories ∧
      (repositories.map GhRepository.toRepository).dedup.length ≤ run.inventory.maxRepos.val ∧
      ∀ r ∈ repositories, r.inventoryKey ≠ key) ∧
    ∀ server path, (paginate S.client server).runFuel (maxPaginationPages + 1)
      ⟨S.client.baseUrl ++ path, 0, []⟩ = some (requestPaginated S.client server path) := by
  constructor
  · have hauthorised : ((machine R S).after ⟨app, .idle⟩ is).phase.Authorised :=
      Machine.invariant (I := fun s : Sweep S => s.phase.Authorised) authorised_step
        (s := ⟨app, .idle⟩) trivial is
    obtain ⟨name, rest, attempt, hphase⟩ := h
    rw [hphase] at hauthorised
    exact (hauthorised (key, name) (List.mem_cons_self ..)).complete
  · intro server path
    exact Loop.runFuel_exec _

end Authority

/-! ## Sight -/

section Sight

variable {R : Runtime} {S : Source}

def SweepPhase.run? : SweepPhase S → Option (SweepRun S)
  | .idle => none
  | .sweeping run | .reconciling run _ _ => some run

/-- The projection held evidence of the key when the listing of the run was fetched. -/
def SweepRun.Held (run : SweepRun S) (key : String) : Prop := run.atFetch.repositories[key]? ≠ none

instance (run : SweepRun S) (key : String) : Decidable (run.Held key) :=
  decidable_of_iff (run.atFetch.repositories[key]?.isSome = true) Option.isSome_iff_ne_none

/-- A sweep has seen the key: it was held when the listing was fetched, or is listed. -/
def SweepPhase.Sees (key : String) : SweepPhase S → Prop
  | .sweeping run => run.Held key ∨ run.Lists key
  | _ => True

instance (key : String) : (phase : SweepPhase S) → Decidable (phase.Sees key)
  | .idle | .reconciling .. => isTrue trivial
  | .sweeping _ => inferInstanceAs (Decidable (_ ∨ _))

/-- A record that lands during a sweep is of a key that the sweep has seen. -/
def SeesRecords (R : Runtime) (s : Sweep S) : SweepInput → Prop
  | .write (.deliver evidence timestamp) fates =>
    ((App.machine R).step s.app ((Writer.deliver evidence timestamp).op, fates)).1 = .ok () →
      s.phase.Sees evidence.repository.inventoryKey
  | _ => True

/-- A sweep sees what the projection holds; a reconciliation deletes what the fetch had seen. -/
structure Seen (s : Sweep S) : Prop where
  keyed : Keyed s.app.projectionState.value
  sweeping : ∀ run, s.phase = .sweeping run → ∀ key,
    s.app.projectionState.value.repositories[key]? ≠ none → run.Held key ∨ run.Lists key
  reconciling : ∀ run disappeared attempt, s.phase = .reconciling run disappeared attempt →
    ∀ entry ∈ disappeared, run.Held entry.1 ∧ ¬ run.Lists entry.1

theorem writer_keyedRecord (writer : Writer) : writer.op.KeyedRecord := by
  cases writer with
  | deliver evidence timestamp => exact rfl
  | remove | recordOrg | recordTeam | detachTeam => trivial

theorem keyedRecord_of_writeOf {s : Sweep S} {i : SweepInput} {write : WriteOp × Fates}
    (h : s.writeOf i = some write) : write.1.KeyedRecord := by
  cases i with
  | write writer fates =>
    cases h
    exact writer_keyedRecord writer
  | mark fates =>
    simp only [Sweep.writeOf] at h
    split at h
    · cases h
      trivial
    · cases h
  | load | reconcile | abort => cases h

theorem keyed_app_step {s : Sweep S} (h : Keyed s.app.projectionState.value) (i : SweepInput) :
    Keyed ((machine R S).step s i).2.app.projectionState.value := by
  rw [app_step]
  split
  · next write hwrite => exact h.step (keyedRecord_of_writeOf hwrite)
  · exact h

/-- A key that appears was just delivered, and its record has landed. -/
theorem delivered_of_appears {s : Sweep S} {i : SweepInput} {key : String}
    (hafter : ((machine R S).step s i).2.app.projectionState.value.repositories[key]? ≠ none)
    (hbefore : s.app.projectionState.value.repositories[key]? = none) :
    ∃ evidence timestamp fates, i = .write (.deliver evidence timestamp) fates ∧
      evidence.repository.inventoryKey = key ∧
      ((App.machine R).step s.app ((Writer.deliver evidence timestamp).op, fates)).1 = .ok () := by
  rw [app_step] at hafter
  split at hafter
  · next write hwrite =>
    rcases moves_step (R := R) s.app write key with ⟨hok, hmoves⟩ | ⟨-, hsame⟩
    · obtain ⟨e, he⟩ := Option.ne_none_iff_exists'.mp hafter
      rcases hmoves.origin he with h | ⟨evidence, repoName, timestamp, hop, -⟩
      · rw [hbefore] at h
        cases h
      · obtain ⟨op, fates⟩ := write
        obtain rfl : op = _ := hop
        cases i with
        | write writer fates' =>
          cases writer with
          | deliver evidence' timestamp' =>
            cases hwrite
            exact ⟨evidence, timestamp, fates, rfl, rfl, hok⟩
          | remove | recordOrg | recordTeam | detachTeam => cases hwrite
        | mark fates' =>
          simp only [Sweep.writeOf] at hwrite
          split at hwrite <;> cases hwrite
        | load | reconcile | abort => cases hwrite
    · rw [hsame] at hafter
      exact absurd hbefore hafter
  · exact absurd hbefore hafter

theorem seen_step (s : Sweep S) (i : SweepInput) (h : Seen s)
    (hi : SeesRecords R s i) :
    Seen ((machine R S).step s i).2 := by
  have hturns := turns_step (R := R) s i
  constructor
  · exact keyed_app_step h.keyed i
  · intro run hrun key hkey
    rw [hrun] at hturns
    generalize hphase : SweepPhase.sweeping run = phase at hturns
    cases hturns with
    | same =>
      cases hheld : s.app.projectionState.value.repositories[key]? with
      | some e =>
        apply h.sweeping run hphase.symm key
        rw [hheld]
        nofun
      | none =>
        obtain ⟨evidence, timestamp, fates, rfl, rfl, hok⟩ := delivered_of_appears hkey hheld
        have hsees := hi hok
        simpa only [SweepPhase.Sees, ← hphase] using hsees
    | ended => cases hphase
    | loaded _ hfetch =>
      cases hphase
      left
      rw [app_step] at hkey
      rw [SweepRun.Held, hfetch]
      exact hkey
    | reconciled _ => cases hphase
    | marked _ => cases hphase
    | retried _ => cases hphase
  · intro run disappeared attempt hrun entry hentry
    rw [hrun] at hturns
    generalize hphase : SweepPhase.reconciling run disappeared attempt = phase at hturns
    cases hturns with
    | same => exact h.reconciling run disappeared attempt hphase.symm entry hentry
    | ended => cases hphase
    | loaded _ _ => cases hphase
    | reconciled hsweeping =>
      cases hphase
      obtain ⟨hauthorises, hsnapshot⟩ := SweepRun.mem_disappeared hentry
      obtain ⟨⟨key, evidence⟩, hevidence, rfl⟩ := List.mem_map.mp hsnapshot
      have hkey : s.app.projectionState.value.repositories[key]? = some evidence :=
        Std.ExtTreeMap.mem_toList_iff_getElem?_eq_some.mp hevidence
      have hown := h.keyed key evidence hkey
      have hholds : s.app.projectionState.value.repositories[key]? ≠ none := by
        rw [hkey]
        nofun
      dsimp only at hauthorises ⊢
      rw [hown] at hauthorises ⊢
      rcases h.sweeping _ hsweeping key hholds with hheld | hlists
      · exact ⟨hheld, hauthorises.not_lists⟩
      · exact absurd hlists hauthorises.not_lists
    | marked hbefore =>
      cases hphase
      exact h.reconciling _ _ _ hbefore entry (List.mem_cons_of_mem _ hentry)
    | retried hbefore =>
      cases hphase
      exact h.reconciling _ _ _ hbefore entry hentry

/-- The input neither removes the key nor starts a new run. -/
def SweepInput.Spares (key : String) : SweepInput → Prop
  | .write (.remove inventoryKey _) _ => inventoryKey ≠ key
  | .load .. => False
  | _ => True

/-- The key is held, and what is left of the run does not delete it. -/
structure Kept (key : String) (s : Sweep S) : Prop where
  held : s.app.projectionState.value.repositories[key]? ≠ none
  listed : ∀ run, s.phase = .sweeping run → run.Lists key
  spared : ∀ run disappeared attempt, s.phase = .reconciling run disappeared attempt →
    ∀ entry ∈ disappeared, entry.1 ≠ key

theorem kept_step {key : String} (s : Sweep S) (i : SweepInput) (h : Kept key s)
    (hi : i.Spares key) : Kept key ((machine R S).step s i).2 := by
  have hturns := turns_step (R := R) s i
  constructor
  · rw [app_step]
    split
    · next write hwrite =>
      have hremoves : ¬ write.1.Removes key := by
        cases i with
        | write writer fates =>
          cases hwrite
          cases writer with
          | remove inventoryKey timestamp => exact hi
          | deliver | recordOrg | recordTeam | detachTeam => exact id
        | mark fates =>
          simp only [Sweep.writeOf] at hwrite
          split at hwrite
          · next hphase =>
            cases hwrite
            exact h.spared _ _ _ hphase _ (List.mem_cons_self ..)
          · cases hwrite
        | load | reconcile | abort => cases hwrite
      rcases moves_step (R := R) s.app write key with ⟨-, hmoves⟩ | ⟨-, hsame⟩
      · exact hmoves.keeps hremoves h.held
      · rw [hsame]
        exact h.held
    · exact h.held
  · intro run hrun
    rw [hrun] at hturns
    generalize hphase : SweepPhase.sweeping run = phase at hturns
    cases hturns with
    | same => exact h.listed run hphase.symm
    | loaded _ _ => exact hi.elim
    | ended | reconciled _ | marked _ | retried _ => cases hphase
  · intro run disappeared attempt hrun entry hentry
    rw [hrun] at hturns
    generalize hphase : SweepPhase.reconciling run disappeared attempt = phase at hturns
    cases hturns with
    | same => exact h.spared run disappeared attempt hphase.symm entry hentry
    | reconciled hsweeping =>
      cases hphase
      rintro rfl
      exact (SweepRun.mem_disappeared hentry).1.not_lists (h.listed _ hsweeping)
    | marked hbefore =>
      cases hphase
      exact h.spared _ _ _ hbefore entry (List.mem_cons_of_mem _ hentry)
    | retried hbefore =>
      cases hphase
      exact h.spared _ _ _ hbefore entry hentry
    | ended | loaded _ _ => cases hphase

/-- What is recorded during a run, and was not held at its fetch, its reconciliation spares. -/
theorem kept_of_delivered {s : Sweep S} {run : SweepRun S} {evidence : RepositoryEvidence}
    {timestamp : String} {fates : Fates} (hseen : Seen s) (hrun : s.phase.run? = some run)
    (hi : SeesRecords R s (.write (.deliver evidence timestamp) fates))
    (hheld : ¬ run.Held evidence.repository.inventoryKey)
    (hok : ((machine R S).step s (.write (.deliver evidence timestamp) fates)).1 = some (.ok ())) :
    Kept evidence.repository.inventoryKey
      ((machine R S).step s (.write (.deliver evidence timestamp) fates)).2 := by
  have hlands : ((App.machine R).step s.app ((Writer.deliver evidence timestamp).op, fates)).1 =
      .ok () := Option.some.inj hok
  constructor
  · rcases moves_step (R := R) s.app ((Writer.deliver evidence timestamp).op, fates)
      evidence.repository.inventoryKey with ⟨-, hmoves⟩ | ⟨hne, -⟩
    · exact hmoves.records
    · exact absurd hlands hne
  · intro run' hphase
    have hphase : s.phase = .sweeping run' := hphase
    have hsees := hi hlands
    simp only [SweepPhase.Sees, hphase] at hsees
    rw [hphase] at hrun
    cases hrun
    exact hsees.resolve_left hheld
  · intro run' disappeared attempt hphase entry hentry hkey
    have hphase : s.phase = .reconciling run' disappeared attempt := hphase
    have hentryHeld := (hseen.reconciling _ _ _ hphase entry hentry).1
    rw [hphase] at hrun
    cases hrun
    exact hheld (hkey ▸ hentryHeld)

/--
Where every record that lands in a sweep was held when its listing was fetched or is listed, a mark
is on a key that was held then and is not listed. So what is first recorded after the fetch stays.
-/
theorem tombstones_only_seen (R : Runtime) (S : Source) {app : AppState}
    (hkeyed : Keyed app.projectionState.value) {is : List SweepInput}
    (h : (machine R S).Along (SeesRecords R) ⟨app, .idle⟩ is) :
    (∀ run key, ((machine R S).after ⟨app, .idle⟩ is).Marks run key →
      run.Held key ∧ ¬ run.Lists key) ∧
    ∀ is₁ evidence timestamp fates js run,
      is = is₁ ++ .write (.deliver evidence timestamp) fates :: js →
      let s := (machine R S).after ⟨app, .idle⟩ is₁
      s.phase.run? = some run → ¬ run.Held evidence.repository.inventoryKey →
      ((machine R S).step s (.write (.deliver evidence timestamp) fates)).1 = some (.ok ()) →
      (∀ i ∈ js, i.Spares evidence.repository.inventoryKey) →
      ((machine R S).after ⟨app, .idle⟩ is).app.projectionState.value.repositories[
        evidence.repository.inventoryKey]? ≠ none := by
  have hidle : Seen (S := S) ⟨app, .idle⟩ := by
    constructor
    · exact hkeyed
    · rintro run ⟨⟩
    · rintro run disappeared attempt ⟨⟩
  constructor
  · rintro run key ⟨name, rest, attempt, hphase⟩
    have hseen : Seen ((machine R S).after ⟨app, .idle⟩ is) :=
      Machine.invariant_along seen_step hidle h
    exact hseen.reconciling _ _ _ hphase _ (List.mem_cons_self ..)
  · rintro is₁ evidence timestamp fates js run rfl s hrun hheld hok hspares
    obtain ⟨halong, hi, -⟩ := Machine.along_append.mp h
    have hseen : Seen s := Machine.invariant_along seen_step hidle halong
    have hkept := kept_of_delivered hseen hrun hi hheld hok
    rw [Machine.after_append, Machine.after_cons]
    refine (Machine.invariant_along (G := fun _ i => i.Spares evidence.repository.inventoryKey)
      kept_step hkept ?_).held
    exact Machine.along_of_mem hspares _

end Sight

/-! ## Runs -/

section Runs

open Publication

def sampleGhRepository (name : String) : GhRepository where
  id := none
  nodeId := none
  name := name
  visibility := none
  «private» := none
  language := none
  defaultBranch := none
  archived := none
  hasIssues := none
  updatedAt := none
  pushedAt := none
  createdAt := none
  description := none
  fork := none
  size := none
  htmlUrl := none
  topics := none
  licenseSpdxId := none

/-- A source whose pages all hold the repository `listed`. -/
def sampleSource : Source where
  client := ⟨"https://api", "https://api", "org", fun _ => none,
    fun _ => .ok (.array [.string "listed"]), fun _ => ""⟩
  fromValue
    | .string name => .ok (sampleGhRepository name)
    | _ => .error "invalid type"
  notAList := "invalid type"
  fetchedAt := sampleTimestamp

/-- The only page arrives at once, and links to no other. -/
def sampleRequest : RequestEnvironment :=
  ⟨false, .ok (), true, fun _ =>
    ⟨fun _ _ => ⟨false, true, .ok ⟨200, [], none, [.ok [91, 93]]⟩⟩, false, .ok ()⟩⟩

def sampleLoad : SweepInput := .load sampleRequest ⟨1, nofun⟩ sampleTimestamp

def sampleDeliver (key : String) : SweepInput :=
  .write (.deliver (sampleEvidence key true) sampleTimestamp)
    ⟨landingOn .undefined, landingOn .undefined⟩

def sampleMark : SweepInput := .mark ⟨landingOn .active, landingOn .active⟩

def sampleSweep (is : List SweepInput) : Sweep sampleSource :=
  (machine sampleRuntime sampleSource).after ⟨.empty, .idle⟩ is

/-- The key of the next mark, and whether it was held when the listing was fetched. -/
def nextMark {S : Source} (s : Sweep S) : Option (String × Bool) :=
  match s.phase with
  | .reconciling run ((key, _) :: _) _ => some (key, decide (run.Held key))
  | _ => none

theorem marks_of_nextMark {S : Source} {s : Sweep S} {key : String} {held : Bool}
    (h : nextMark s = some (key, held)) :
    ∃ run, s.Marks run key ∧ (run.Held key ↔ held = true) := by
  unfold nextMark at h
  split at h
  · next run key' name rest attempt hphase =>
    cases h
    exact ⟨run, ⟨name, rest, attempt, hphase⟩, decide_eq_true_iff.symm⟩
  · cases h

/-- A repository first recorded during the sweep is marked deleted, and no longer held. -/
theorem unseen_repository_tombstoned :
    let run := [sampleLoad, sampleDeliver "new", .reconcile]
    (∃ r, (sampleSweep run).Marks r "new" ∧ ¬ r.Held "new") ∧
      (sampleSweep run).app.projectionState.value.repositories["new"]?.isSome = true ∧
      (sampleSweep (run ++ [sampleMark])).app.projectionState.value.repositories["new"]?.isSome =
        false := by
  intro run
  have hmark : nextMark (sampleSweep run) = some ("new", false) := by
    decide +kernel
  obtain ⟨r, hmarks, hheld⟩ := marks_of_nextMark hmark
  refine ⟨⟨r, hmarks, fun h => ?_⟩, ?_, ?_⟩
  · cases hheld.mp h
  · decide +kernel
  · decide +kernel

/-- A sweep that records a listed repository, and deletes one that was held before. -/
def sampleReconciled : List SweepInput :=
  [sampleDeliver "gone", sampleLoad, sampleDeliver "listed", .reconcile]

theorem sampleReconciled_sees :
    (machine sampleRuntime sampleSource).Along (SeesRecords sampleRuntime) ⟨.empty, .idle⟩
      sampleReconciled := by
  refine ⟨fun _ => ?_, trivial, fun _ => ?_, trivial, trivial⟩
  · decide +kernel
  · decide +kernel

/-- The mark of the sample was held at its fetch, and what it recorded is held still. -/
theorem tombstones_only_seen_reconciled :
    (∃ run, (sampleSweep sampleReconciled).Marks run "gone" ∧ run.Held "gone" ∧
      ¬ run.Lists "gone") ∧
    (sampleSweep sampleReconciled).app.projectionState.value.repositories["listed"]? ≠ none := by
  have hmark : nextMark (sampleSweep sampleReconciled) = some ("gone", true) := by
    decide +kernel
  obtain ⟨hmarked, hkept⟩ :=
    tombstones_only_seen sampleRuntime sampleSource keyed_default sampleReconciled_sees
  obtain ⟨run, hmarks, -⟩ := marks_of_nextMark hmark
  refine ⟨⟨run, hmarks, hmarked run "gone" hmarks⟩, ?_⟩
  have hfetch : ((sampleSweep [sampleDeliver "gone", sampleLoad]).phase.run?.any
      fun run => !decide (run.Held "listed")) = true := by
    decide +kernel
  obtain ⟨run', hrun', hheld⟩ := (Option.any_eq_true _ _).mp hfetch
  apply hkept [sampleDeliver "gone", sampleLoad] (sampleEvidence "listed" true) sampleTimestamp
    ⟨landingOn .undefined, landingOn .undefined⟩ [.reconcile] run' rfl hrun'
  · have hnew : ¬ run'.Held "listed" := by simpa using hheld
    exact hnew
  · rfl
  · intro i hi
    obtain rfl := List.mem_singleton.mp hi
    trivial

/-- The listing of the sample is complete, within its bound, and without what it deletes. -/
theorem only_complete_listing_deletes_reconciled :
    ∃ run repositories, (sampleSweep sampleReconciled).Marks run "gone" ∧
      sampleSource.ListedRepositories run.inventory.env repositories ∧
      (repositories.map GhRepository.toRepository).dedup.length ≤ run.inventory.maxRepos.val ∧
      ∀ r ∈ repositories, r.inventoryKey ≠ "gone" := by
  have hmark : nextMark (sampleSweep sampleReconciled) = some ("gone", true) := by
    decide +kernel
  obtain ⟨run, hmarks, -⟩ := marks_of_nextMark hmark
  obtain ⟨⟨repositories, hlisted⟩, -⟩ :=
    only_complete_listing_deletes sampleRuntime sampleSource .empty sampleReconciled hmarks
  exact ⟨run, repositories, hmarks, hlisted⟩

end Runs

end GhReport.Collect
