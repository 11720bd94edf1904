import GhReport.App.Restart
import GhReport.Publication.Publisher
import Mathlib.Data.List.Infix

/-! # The displayed report never rewinds

Over every interleaving of writes, captures, observations and commits, a report
that is displayed after another continues it, as long as no warm start has been
displayed in between.
-/

namespace GhReport.Publication

open Domain App Inventory Publisher

/-- The later report is as recent, and shows what the earlier one showed, but for excused keys. -/
structure Continues (excused : String → Prop) (new previous : PublicationQuality) : Prop where
  follows : new.Follows previous
  inventory : previous.inventoryKnown = true → new.inventoryKnown = true
  repositories : ∀ key, Shows previous.repositories key →
    Keeps new.repositories previous.repositories key ∨ excused key
  rosters : ∀ owner, Keeps new.rosters previous.rosters owner

namespace Continues

variable {excused excused' : String → Prop} {new between previous : PublicationQuality}

theorem refl : Continues excused previous previous :=
  ⟨.refl, id, fun _ _ => .inl .refl, fun _ => .refl⟩

theorem of_preserves (h : new.preserves previous = true) :
    Continues new.Excuses new previous := by
  obtain ⟨hfollows, hknown, hrepositories, hrosters⟩ := PublicationQuality.preserves_keeps h
  exact ⟨hfollows, hknown, hrepositories, hrosters⟩

/-- What both reports excuse together is excused of the longer stretch. -/
theorem trans (h : Continues excused new between) (h' : Continues excused' between previous) :
    Continues (fun key => excused key ∨ excused' key) new previous := by
  constructor
  · exact h.follows.trans h'.follows
  · exact fun hknown => h.inventory (h'.inventory hknown)
  · intro key hkey
    rcases h'.repositories key hkey with hkeeps | hexcused
    · rcases h.repositories key (hkeeps.1 hkey) with hkeeps' | hexcused
      · exact .inl (hkeeps'.trans hkeeps)
      · exact .inr (.inl hexcused)
    · exact .inr (.inr hexcused)
  · exact fun owner => (h.rosters owner).trans (h'.rosters owner)

theorem imp (h : Continues excused new previous) (himp : ∀ key, excused key → excused' key) :
    Continues excused' new previous := by
  refine ⟨h.follows, h.inventory, fun key hkey => ?_, h.rosters⟩
  exact (h.repositories key hkey).imp_right (himp key)

end Continues

/-! ## One step -/

/-- A commit over a protected report displays it, or a candidate that preserves it. -/
theorem commitCachedPages_candidate {publication : AdmittedPublication}
    (hstage : publication.candidate.stage ≠ .warmStart) (candidate : PublicationCandidate) :
    let d := (commitCachedPages (some publication) candidate).candidate
    d = publication.candidate ∨
      d.quality.preserves publication.candidate.quality = true := by
  simp only [commitCachedPages]
  split
  · exact .inl rfl
  · next h =>
    right
    rw [not_and, Bool.not_eq_false] at h
    exact h hstage

variable {R : Renderer} {p : Publisher} {d : PublicationCandidate}

theorem commit_continues (hd : p.displayed = some d) (hstage : d.stage ≠ .warmStart)
    (candidate : PublicationCandidate) :
    ∃ d', (p.commit candidate).displayed = some d' ∧
      (d' = d ∨ Continues d'.quality.Excuses d'.quality d.quality) := by
  obtain ⟨publication, hpublication, rfl⟩ := Option.map_eq_some_iff.mp hd
  refine ⟨_, rfl, ?_⟩
  rw [hpublication]
  exact (commitCachedPages_candidate hstage candidate).imp_right Continues.of_preserves

/-- A step displays what was displayed, or a candidate that continues it. -/
theorem step_continues (hd : p.displayed = some d) (hstage : d.stage ≠ .warmStart)
    (i : PublisherInput) :
    ∃ d', (p.step R i).displayed = some d' ∧
      (d' = d ∨ Continues d'.quality.Excuses d'.quality d.quality) := by
  have hsame : ∀ {p' : Publisher}, p'.publication = p.publication →
      ∃ d', p'.displayed = some d' ∧
        (d' = d ∨ Continues d'.quality.Excuses d'.quality d.quality) := by
    intro p' hp'
    exact ⟨d, by rw [displayed, hp']; exact hd, .inl rfl⟩
  have hterminal : ∀ candidate, ∃ d', (p.commitTerminalPublication candidate).displayed = some d' ∧
      (d' = d ∨ Continues d'.quality.Excuses d'.quality d.quality) := by
    intro candidate
    unfold commitTerminalPublication
    split
    · exact hsame rfl
    · exact commit_continues hd hstage candidate
  cases i with
  | write op fates => exact hsame rfl
  | capture =>
    simp only [step, projectionRenderSnapshot]
    split
    · exact hsame rfl
    · split <;> exact hsame rfl
  | observeLive rosters =>
    simp only [step, observeLive]
    split <;> exact hsame rfl
  | warmStart n =>
    simp only [step]
    split
    · exact hsame rfl
    · split
      · exact hsame rfl
      · exact commit_continues hd hstage _
  | partialRender n inventory runTimestamp =>
    simp only [step]
    split
    · exact hsame rfl
    · exact commit_continues hd hstage _
  | finalize n inventory runTimestamp observation =>
    simp only [step]
    split
    · exact hsame rfl
    · exact hterminal _
    · split
      · exact hsame rfl
      · exact hterminal _

/-! ## Runs -/

/-- Some report displayed along the run, after one of its prefixes, excuses the key. -/
def ExcusedAlong (R : Renderer) (p : Publisher) (is : List PublisherInput) (key : String) : Prop :=
  ∃ js c, js <+: is ∧ ((machine R).after p js).displayed = some c ∧ c.quality.Excuses key

/-- Before the end of the run, no warm start is displayed. -/
def ProtectedAlong (R : Renderer) (p : Publisher) (is : List PublisherInput) : Prop :=
  ∀ js c, js <+: is → js ≠ is → ((machine R).after p js).displayed = some c →
    c.stage ≠ .warmStart

/--
The displayed report never rewinds and loses only what was deleted: a later report continues
an earlier one, as long as no warm start is displayed in between.
-/
theorem display_continues (R : Renderer) (p : Publisher) (is : List PublisherInput)
    {d : PublicationCandidate} (hd : p.displayed = some d) (hstages : ProtectedAlong R p is) :
    ∃ d', ((machine R).after p is).displayed = some d' ∧
      Continues (ExcusedAlong R p is) d'.quality d.quality := by
  induction is generalizing p d with
  | nil => exact ⟨d, hd, .refl⟩
  | cons i is ih =>
    have hstage : d.stage ≠ .warmStart :=
      hstages [] d (List.nil_prefix) (by simp) hd
    obtain ⟨d₁, hd₁, hstep⟩ := step_continues (R := R) hd hstage i
    have hrest : ProtectedAlong R (p.step R i) is := by
      intro js c hjs hne hc
      exact hstages (i :: js) c (List.cons_prefix_cons.mpr ⟨rfl, hjs⟩) (by simpa using hne) hc
    obtain ⟨d', hd', hcontinues⟩ := ih (p.step R i) hd₁ hrest
    have hlater : Continues (ExcusedAlong R p (i :: is)) d'.quality d₁.quality := by
      apply hcontinues.imp
      rintro key ⟨js, c, hjs, hc, hexcuses⟩
      exact ⟨i :: js, c, List.cons_prefix_cons.mpr ⟨rfl, hjs⟩, hc, hexcuses⟩
    refine ⟨d', hd', ?_⟩
    rcases hstep with rfl | hstep
    · exact hlater
    · apply (hlater.trans hstep).imp
      rintro key (hexcused | hexcuses)
      · exact hexcused
      · exact ⟨[i], d₁, List.cons_prefix_cons.mpr ⟨rfl, List.nil_prefix⟩, hd₁, hexcuses⟩

/-! ## Reports that do not continue -/

def sampleRenderer : Renderer := { sampleRuntime with parseTimestamp _ := some 0 }

def sampleRepository (key : String) : Repository where
  id := key
  nodeId := none
  name := key
  visibility := .private
  language := none
  defaultBranch := "main"
  archived := false
  inventoryKey := key
  updatedAt := none
  hasIssues := false
  pushedAt := none
  createdAt := none
  description := none
  fork := false
  isEmpty := false
  htmlUrl := none
  topics := []
  licenseSpdx := none

def sampleTimestamp := "1970-01-01T00:00:00Z"

/-- Evidence of the repository `key` with nothing observed, or only its branch protection. -/
def sampleEvidence (key : String) (observed : Bool) : RepositoryEvidence :=
  let evidence := failureEvidenceWithReason (sampleRepository key) sampleTimestamp "failed"
  if observed then
    { evidence with checks := { evidence.checks with
      branchProtection := .protected "main" sampleTimestamp } }
  else evidence

/-- The listing of one repository that no run of the samples reads. -/
def sampleInventory (complete : Bool) : AdmittedInventory :=
  ⟨[sampleRepository "other"], complete, none, false, 1, 0⟩

def sampleRecordRepo (observed : Bool) : PublisherInput :=
  .write (.recordRepo "key" (sampleEvidence "key" observed) "key" sampleTimestamp)
    ⟨landingOn .undefined, landingOn .undefined⟩

def sampleRemoveRepo : PublisherInput :=
  .write (.removeRepo "key" "key" sampleTimestamp) ⟨landingOn .active, landingOn .active⟩

def sampleMarkRepoDeleted : PublisherInput :=
  .write (.markRepoDeleted "key" "key" sampleTimestamp) ⟨landingOn .active, landingOn .active⟩

def sampleRender (capture : ℕ) (complete : Bool) : PublisherInput :=
  .partialRender capture (sampleInventory complete) sampleTimestamp

/-- The publisher of the samples after a run from empty stores. -/
def sampleAfter (is : List PublisherInput) : Publisher :=
  (machine sampleRenderer).after (.boot .empty 0) is

/-- What the displayed report shows of the sample repository, and whether its capture deleted it. -/
def sampleView (p : Publisher) : Option (Bool × Bool) :=
  p.displayed.map fun d =>
    (d.quality.repositories["key"]?.isSome, d.quality.witnessesDeletion "key")

theorem shows_of_sampleView {p : Publisher} {d : PublicationCandidate} {shown deleted : Bool}
    (hd : p.displayed = some d) (h : sampleView p = some (shown, deleted)) :
    (Shows d.quality.repositories "key" ↔ shown = true) ∧
      (d.quality.witnessesDeletion "key" = true ↔ deleted = true) := by
  rw [sampleView, hd, Option.map_some, Option.some.injEq, Prod.mk.injEq] at h
  obtain ⟨hshown, hdeleted⟩ := h
  exact ⟨by rw [← hshown, Option.isSome_iff_exists, Shows], by rw [hdeleted]⟩

def sampleObserved : List PublisherInput := [sampleRecordRepo true, .capture, sampleRender 0 true]

/-- The repository is deleted, and comes back with nothing observed. -/
def sampleRerecorded : List PublisherInput :=
  [sampleMarkRepoDeleted, .capture, sampleRender 1 true,
    sampleRecordRepo false, .capture, sampleRender 2 true]

/-- A warm start is displayed, and the repository is removed. -/
def sampleWarmStarted : List PublisherInput :=
  [.warmStart 0, sampleRemoveRepo, .capture, sampleRender 1 false]

def sampleUnknown : List PublisherInput := [sampleRecordRepo true, .capture, sampleRender 0 false]

theorem sampleRerecorded_protected :
    ProtectedAlong sampleRenderer (sampleAfter sampleObserved) sampleRerecorded := by
  have h : ∀ js ∈ sampleRerecorded.inits,
      ((machine sampleRenderer).after (sampleAfter sampleObserved) js).displayed.all
        (fun c => decide (c.stage ≠ .warmStart)) = true := by
    decide +kernel
  intro js c hjs _ hc
  have hjs' := h js ((List.mem_inits js _).mpr hjs)
  rw [hc] at hjs'
  simpa using hjs'

/--
A repository that was deleted may come back unobserved, and then the newer capture does not
excuse it; and a warm start displayed in between drops what was protected.
-/
theorem later_report_may_not_continue :
    (¬ ∀ (R : Renderer) (app : AppState) (source : ℕ) (is js : List PublisherInput),
      let p := (machine R).after (.boot app source) is
      ∀ d, p.displayed = some d → ProtectedAlong R p js →
        ∃ d', ((machine R).after p js).displayed = some d' ∧
          Continues (fun key => d'.quality.witnessesDeletion key = true) d'.quality d.quality) ∧
    ¬ ∀ (R : Renderer) (app : AppState) (source : ℕ) (is js : List PublisherInput),
      let p := (machine R).after (.boot app source) is
      ∀ d, p.displayed = some d → d.stage ≠ .warmStart →
        ∃ d', ((machine R).after p js).displayed = some d' ∧
          Continues (ExcusedAlong R p js) d'.quality d.quality := by
  constructor
  · intro hclaim
    have hbefore : sampleView (sampleAfter sampleObserved) = some (true, false) := by
      decide +kernel
    have hafter : sampleView (sampleAfter (sampleObserved ++ sampleRerecorded)) =
        some (false, false) := by
      decide +kernel
    obtain ⟨d, hd, -⟩ := Option.map_eq_some_iff.mp hbefore
    obtain ⟨d', hd', hcontinues⟩ :=
      hclaim sampleRenderer .empty 0 sampleObserved sampleRerecorded d hd
        sampleRerecorded_protected
    obtain ⟨hshown, -⟩ := shows_of_sampleView hd hbefore
    obtain ⟨hshown', hdeleted'⟩ := shows_of_sampleView hd' hafter
    rcases hcontinues.repositories "key" (hshown.mpr rfl) with hkeeps | hexcused
    · cases hshown'.mp (hkeeps.1 (hshown.mpr rfl))
    · cases hdeleted'.mp hexcused
  · intro hclaim
    have hbefore : sampleView (sampleAfter sampleUnknown) = some (true, false) := by
      decide +kernel
    have hafter : sampleView (sampleAfter (sampleUnknown ++ sampleWarmStarted)) =
        some (false, false) := by
      decide +kernel
    have hnone : ∀ js ∈ sampleWarmStarted.inits,
        (sampleView (sampleAfter (sampleUnknown ++ js))).all (fun view => !view.2) = true := by
      decide +kernel
    obtain ⟨d, hd, -⟩ := Option.map_eq_some_iff.mp hbefore
    have hstage : d.stage ≠ .warmStart := by
      have h : (sampleAfter sampleUnknown).displayed.map PublicationCandidate.stage =
          some .intermediate := by
        decide +kernel
      rw [hd, Option.map_some, Option.some.injEq] at h
      rw [h]
      nofun
    obtain ⟨d', hd', hcontinues⟩ :=
      hclaim sampleRenderer .empty 0 sampleUnknown sampleWarmStarted d hd hstage
    obtain ⟨hshown, -⟩ := shows_of_sampleView hd hbefore
    obtain ⟨hshown', -⟩ := shows_of_sampleView hd' hafter
    rcases hcontinues.repositories "key" (hshown.mpr rfl) with hkeeps | hexcused
    · cases hshown'.mp (hkeeps.1 (hshown.mpr rfl))
    · obtain ⟨js, c, hjs, hc, -, hdeleted⟩ := hexcused
      have hview := hnone js ((List.mem_inits js _).mpr hjs)
      change
        ((machine sampleRenderer).after (sampleAfter sampleUnknown) js).displayed = some c at hc
      rw [sampleAfter, Machine.after_append, sampleView] at hview
      rw [sampleAfter] at hc
      rw [hc, Option.map_some, Option.all_some, hdeleted] at hview
      cases hview

/-- The report of the samples continues through the deletion and the return of the repository. -/
theorem display_continues_rerecorded :
    ∃ d d', (sampleAfter sampleObserved).displayed = some d ∧
      ((machine sampleRenderer).after (sampleAfter sampleObserved) sampleRerecorded).displayed =
        some d' ∧
      Continues (ExcusedAlong sampleRenderer (sampleAfter sampleObserved) sampleRerecorded)
        d'.quality d.quality := by
  have hview : sampleView (sampleAfter sampleObserved) = some (true, false) := by
    decide +kernel
  obtain ⟨d, hd, -⟩ := Option.map_eq_some_iff.mp hview
  obtain ⟨d', hd', hcontinues⟩ := display_continues sampleRenderer (sampleAfter sampleObserved)
    sampleRerecorded hd sampleRerecorded_protected
  exact ⟨d, d', hd, hd', hcontinues⟩

end GhReport.Publication
