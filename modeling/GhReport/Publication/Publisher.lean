import GhReport.App.Admission
import GhReport.Inventory.Admitted
import GhReport.Publication.Quality

/-! # The publisher

Writes, captures of the projection, live observations and commits of rendered
candidates, interleaved in any order. A candidate is rendered from one capture;
it may be committed any time later.
-/

namespace GhReport.Publication

open Domain Projection App Inventory

/-! ## Captures -/

structure ProjectionRenderSnapshot where
  token : ProjectionCaptureToken
  projection : EvidenceProjection

namespace ProjectionRenderSnapshot

variable (snapshot : ProjectionRenderSnapshot)

/-- The evidence, by repository identifier and then by name. -/
def repositories : List RepositoryEvidence :=
  snapshot.projection.repositories.values.insertionSort fun a b =>
    a.repository.id < b.repository.id
      ∨ a.repository.id = b.repository.id ∧ a.repository.name ≤ b.repository.name

/-- The live rosters, then the ghosts of the teams without one. -/
def teamRosters : List TeamRoster :=
  snapshot.projection.teamRosters.values ++
    (snapshot.projection.teamGhostRosters.toList.filter fun entry =>
      !snapshot.projection.teamRosters.contains entry.1).map Prod.snd

end ProjectionRenderSnapshot

/-- The next number of a sequence, until it is exhausted. -/
def nextCapture (sequence : UInt64) : Option UInt64 :=
  if sequence.toNat + 1 < 2 ^ 64 then some (sequence + 1) else none

/-- A capture of the projection, with the writes that had returned Ok by then. -/
structure Capture where
  snapshot : ProjectionRenderSnapshot
  history : List WriteOp

/-! ## Candidates -/

/-- Evidence that says nothing could be observed, and why. -/
def failureEvidenceWithReason (repo : Repository) (runTimestamp reason : String) :
    RepositoryEvidence where
  repository := repo
  checks := {
    securityPolicy :=
      if repo.isPublic then
        .unobservable (if reason = "pending" then .pending else .invalid) runTimestamp
      else .notApplicable runTimestamp
    secretScanning :=
      let reason := if reason = "pending" then .pending else .invalid
      .unobservable (.failure reason none) (.failed .perRepoEndpoint reason none) runTimestamp
    dependabotSecurityUpdates := ⟨.unknown, some reason, runTimestamp⟩
    branchProtection :=
      .unobservable repo.defaultBranch (if reason = "pending" then .pending else .invalid) none
        runTimestamp
    codeowners := .unobservable (if reason = "pending" then .pending else .invalid) runTimestamp }
  lastCommit := none
  repoDetailsNotModified := false

/-- The repositories of the inventory that have no evidence are reported as pending. -/
def includeUnreadRepositories (repositories : List RepositoryEvidence)
    (inventory : AdmittedInventory) (runTimestamp : String) : List RepositoryEvidence :=
  let present := repositories.map fun repo => repo.repository.inventoryKey
  repositories ++
    (inventory.activeRepos.filter fun repo => !present.contains repo.inventoryKey).map fun repo =>
      failureEvidenceWithReason repo runTimestamp RepositoryReadState.pendingReason

/-- What the publisher is given from outside. -/
structure Renderer extends Runtime where
  parseTimestamp : String → Option ℤ

section Candidates

variable (R : Renderer) (snapshot : ProjectionRenderSnapshot)

/-- The report at boot; an empty projection has none. -/
def warmStartFromBaseline : Option PublicationCandidate :=
  if snapshot.repositories.isEmpty && snapshot.projection.orgState.isNone then none
  else some {
    quality := .fromEvidence R.parseTimestamp (.projection snapshot.token) false
      ⟨snapshot.repositories, snapshot.teamRosters⟩
    stage := .warmStart }

/-- A report while the repositories of a run are being read. -/
def partialRenderOnce (inventory : AdmittedInventory) (runTimestamp : String) :
    PublicationCandidate where
  quality := .fromEvidence R.parseTimestamp (.projection snapshot.token) inventory.complete
    ⟨includeUnreadRepositories snapshot.repositories inventory runTimestamp, snapshot.teamRosters⟩
  stage := .intermediate

/-- The report at the end of a run, with the rosters of the capture or of a live observation. -/
def finalizeAndPublish (inventory : AdmittedInventory) (runTimestamp : String)
    (observed : Option (LiveObservationToken × List TeamRoster)) : PublicationCandidate where
  quality :=
    let repositories := includeUnreadRepositories snapshot.repositories inventory runTimestamp
    match observed with
    | none =>
      .fromEvidence R.parseTimestamp (.projection snapshot.token) inventory.complete
        ⟨repositories, snapshot.teamRosters⟩
    | some (live, rosters) =>
      .fromEvidence R.parseTimestamp (.liveOverlay snapshot.token live) inventory.complete
        ⟨repositories, rosters⟩
  stage := .terminal

end Candidates

/-! ## The machine -/

/-- The state of the process that the publication of reports reads and changes. -/
structure Publisher where
  app : AppState
  source : ℕ
  renderSequence : UInt64
  liveSequence : UInt64
  publication : Option AdmittedPublication
  /-- The captures and the live observations so far, which renders read. -/
  captures : List Capture
  observations : List (LiveObservationToken × List TeamRoster)
  /-- The writes that returned Ok so far. -/
  history : List WriteOp

/-- The renders name their capture, and the live observation, by position. -/
inductive PublisherInput where
  | write (op : WriteOp) (fates : Fates)
  | capture
  | observeLive (rosters : List TeamRoster)
  | warmStart (capture : ℕ)
  | partialRender (capture : ℕ) (inventory : AdmittedInventory) (runTimestamp : String)
  | finalize (capture : ℕ) (inventory : AdmittedInventory) (runTimestamp : String)
      (observation : Option ℕ)

namespace Publisher

variable (R : Renderer) (p : Publisher)

def write (op : WriteOp) (fates : Fates) : Publisher :=
  let (answer, app) := (machine R.toRuntime).step p.app (op, fates)
  { p with
    app := app
    history := match answer with
      | .ok () => p.history ++ [op]
      | .error _ => p.history }

/-- A poisoned projection lock is a panic of the caller, an exhausted sequence an error. -/
def projectionRenderSnapshot : Publisher :=
  if p.app.projectionState.poisoned then p
  else match nextCapture p.renderSequence with
    | none => p
    | some sequence =>
      let projection := p.app.projectionState.value
      let snapshot := ⟨⟨p.source, sequence, projection.deleted.keys⟩, projection⟩
      { p with
        renderSequence := sequence
        captures := p.captures ++ [⟨snapshot, p.history⟩] }

def observeLive (rosters : List TeamRoster) : Publisher :=
  match nextCapture p.liveSequence with
  | none => p
  | some sequence =>
    { p with
      liveSequence := sequence
      observations := p.observations ++ [(⟨p.source, sequence⟩, rosters)] }

def commit (candidate : PublicationCandidate) : Publisher :=
  { p with publication := some (commitCachedPages p.publication candidate) }

/-- The last commit of a run is a write: a latched admission refuses it. -/
def commitTerminalPublication (candidate : PublicationCandidate) : Publisher :=
  match lockWriteAdmission p.app with
  | some _ => p
  | none => p.commit candidate

def step : PublisherInput → Publisher
  | .write op fates => p.write R op fates
  | .capture => p.projectionRenderSnapshot
  | .observeLive rosters => p.observeLive rosters
  | .warmStart i =>
    match p.captures[i]? with
    | none => p
    | some capture =>
      match warmStartFromBaseline R capture.snapshot with
      | none => p
      | some candidate => p.commit candidate
  | .partialRender i inventory runTimestamp =>
    match p.captures[i]? with
    | none => p
    | some capture => p.commit (partialRenderOnce R capture.snapshot inventory runTimestamp)
  | .finalize i inventory runTimestamp observation =>
    match p.captures[i]?, observation with
    | none, _ => p
    | some capture, none =>
      p.commitTerminalPublication
        (finalizeAndPublish R capture.snapshot inventory runTimestamp none)
    | some capture, some j =>
      match p.observations[j]? with
      | none => p
      | some observed =>
        p.commitTerminalPublication
          (finalizeAndPublish R capture.snapshot inventory runTimestamp (some observed))

/-- The publisher as a machine; it answers nothing. -/
def machine : Machine Publisher PublisherInput Unit where
  step p i := ((), p.step R i)

/-- The report that readers see. -/
def displayed : Option PublicationCandidate := p.publication.map AdmittedPublication.candidate

/-- A process that comes up with the given stores and projection. -/
def boot (app : AppState) (source : ℕ) : Publisher := ⟨app, source, 0, 0, none, [], [], []⟩

end Publisher

end GhReport.Publication
