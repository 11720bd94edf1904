import GhReport.Event.Convert
import GhReport.Library.KeyMap
import GhReport.Library.Upsert

/-! # The evidence projection

The read model that the event stream folds into. Captured evidence replaces
what is stored unless it would replace complete evidence by incomplete evidence;
detaching and deletion remove.
-/

namespace GhReport.Projection

open Domain Event Upsert

/-- The latest organisation snapshot of the read model. -/
structure OrgReadModel where
  archivedRepos : UInt32
  assessmentMetadata : Domain.AssessmentMetadata
  alertSummary : Domain.OrgAlertSummary

/-- A repository found deleted. -/
structure DeletedRepoRecord where
  repoName : String
  detectedAt : String
deriving DecidableEq

/-- The read model of repositories, organisation state and team rosters. -/
structure EvidenceProjection where
  repositories : KeyMap Domain.RepositoryEvidence
  deleted : KeyMap DeletedRepoRecord
  orgState : Option OrgReadModel
  teamRosters : KeyMap TeamRoster
  teamGhostRosters : KeyMap TeamRoster

/-- The empty projection. -/
def EvidenceProjection.default : EvidenceProjection := ⟨∅, ∅, none, ∅, ∅⟩

inductive EvidenceProjectionEvent where
  | repositoryStateCaptured (detached : Bool) (domainKey : String)
      (evidence : Option Domain.RepositoryEvidence)
  | repositoryDeleted (domainKey repoName detectedAt : String)
  | orgStateCaptured (snapshot : OrgStateSnapshot)
  | teamStateCaptured (detached : Bool) (domainKey : String) (roster : Option TeamRoster)

def OrgReadModel.ofSnapshot (s : OrgStateSnapshot) : OrgReadModel :=
  ⟨s.archivedRepos, s.assessmentMetadata, s.alertSummary⟩

def OrgReadModel.isComplete (m : OrgReadModel) : Bool :=
  m.alertSummary.collectionStatus == .success

/-- A roster whose member list was fetched whole. -/
def rosterComplete (r : TeamRoster) : Bool := r.status == .complete

namespace EvidenceProjection

/-- A degraded snapshot does not replace a complete one. -/
def applyOrgState (p : EvidenceProjection) (snapshot : OrgStateSnapshot) : EvidenceProjection :=
  let incoming := OrgReadModel.ofSnapshot snapshot
  let existingIsComplete := p.orgState.any OrgReadModel.isComplete
  if !existingIsComplete || incoming.isComplete then { p with orgState := some incoming } else p

/-- Fold one event into the projection. -/
def apply (p : EvidenceProjection) : EvidenceProjectionEvent → EvidenceProjection
  | .repositoryStateCaptured detached domainKey evidence =>
    if detached then { p with repositories := p.repositories.erase domainKey }
    else match evidence with
      | none => p
      | some evidence =>
        let existingIsComplete := p.repositories[domainKey]?.any RepositoryEvidence.isComplete
        if !existingIsComplete || evidence.isComplete then
          { p with
            deleted := p.deleted.erase domainKey
            repositories := p.repositories.insert domainKey evidence }
        else p
  | .repositoryDeleted domainKey repoName detectedAt =>
    { p with
      repositories := p.repositories.erase domainKey
      deleted := p.deleted.insert domainKey ⟨repoName, detectedAt⟩ }
  | .orgStateCaptured snapshot => p.applyOrgState snapshot
  | .teamStateCaptured detached domainKey roster =>
    if detached then
      let p := { p with teamRosters := p.teamRosters.erase domainKey }
      match roster with
      | some roster =>
        if roster.status = .deleted then
          { p with teamGhostRosters := p.teamGhostRosters.insert domainKey roster }
        else { p with teamGhostRosters := p.teamGhostRosters.erase domainKey }
      | none => { p with teamGhostRosters := p.teamGhostRosters.erase domainKey }
    else match roster with
      | none => p
      | some roster =>
        let existingIsComplete := p.teamRosters[domainKey]?.any rosterComplete
        let p :=
          if !existingIsComplete || rosterComplete roster then
            { p with teamRosters := p.teamRosters.insert domainKey roster }
          else p
        { p with teamGhostRosters := p.teamGhostRosters.erase domainKey }

end EvidenceProjection

/-! ## Folding native events -/

variable (C : Calendar)

def orgProjectionEvent (event : OrgStateCaptured) : EvidenceProjectionEvent :=
  .orgStateCaptured event.toDomain

def teamProjectionEvent (detached : Bool) (event : TeamStateCaptured) : EvidenceProjectionEvent :=
  .teamStateCaptured detached event.key (some event.toDomain)

def foldOrgEvent (p : EvidenceProjection) (event : OrgStateCaptured) : EvidenceProjection :=
  p.apply (orgProjectionEvent event)

def foldTeamEvent (p : EvidenceProjection) (event : TeamStateCaptured) : EvidenceProjection :=
  p.apply (teamProjectionEvent false event)

/-- A detached organisation event is skipped; a deletion ignores the flag. -/
def foldNativeEvent (p : EvidenceProjection) (detached : Bool) :
    DomainEvent → EvidenceProjection
  | .repositoryStateCaptured domainKey _ _ evidence =>
    p.apply (.repositoryStateCaptured detached domainKey.text
      (evidence.map fun e => e.toDomain C))
  | .repositoryDeleted domainKey repoName detectedAt =>
    p.apply (.repositoryDeleted domainKey.text repoName.text (tsToString C detectedAt))
  | .orgStateCaptured org => if detached then p else foldOrgEvent p org
  | .teamStateCaptured team => p.apply (teamProjectionEvent detached team)

end GhReport.Projection
