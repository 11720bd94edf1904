import GhReport.App.State
import GhReport.Collector.RefMatching

/-! # Webhook events

An event asks for a repository to be evaluated again, or to be removed, or is
ignored. Which of these, and for which key, does not depend on the projection.
-/

namespace GhReport.Webhook

open Domain App
open Event (Visibility)
open Collector (stripPrefix)

/-! ## Payloads -/

inductive WebhookError where
  | invalidJson (error : String)
  | missingRepository

structure WebhookRepository where
  id : UInt64
  nodeId : Option String
  name : String
  fullName : Option String
  visibility : Option String
  defaultBranch : Option String
  archived : Bool
  htmlUrl : Option String

structure WebhookPayload where
  repository : Option WebhookRepository
  action : Option String

structure PushRepository where
  id : UInt64
  name : String
  defaultBranch : String

structure PushCommit where
  added : List String
  modified : List String
  removed : List String

structure PushEvent where
  refField : String
  repository : PushRepository
  commits : List PushCommit

/-- The deserialisers of a body. -/
structure Decoder where
  payload : List UInt8 → Except String WebhookPayload
  push : List UInt8 → Except String PushEvent

/-! ## Actions -/

inductive WebhookAction where
  | enqueue (inventoryKey : String) (repo : Repository)
  | remove (inventoryKey : String)
  | ignore
deriving DecidableEq

def securityPaths : List String := ["SECURITY.md", ".github/SECURITY.md", "docs/SECURITY.md"]

def codeownersPaths : List String := [".github/CODEOWNERS", "CODEOWNERS"]

def isSecurityRelevantPush (payload : PushEvent) : Bool :=
  match stripPrefix "refs/heads/" payload.refField with
  | none => false
  | some refName =>
    if refName ≠ payload.repository.defaultBranch then false
    else payload.commits.any fun commit =>
      (commit.added ++ commit.modified ++ commit.removed).any fun file =>
        securityPaths.contains file || codeownersPaths.contains file

/-- A repository of which nothing but its id, its name and its default branch is known. -/
def minimalRepository (id name : String) : Repository where
  id := id
  nodeId := none
  name := name
  visibility := .private
  language := none
  defaultBranch := "main"
  archived := false
  inventoryKey := id
  updatedAt := none
  hasIssues := false
  pushedAt := none
  createdAt := none
  description := none
  fork := false
  isEmpty := false
  htmlUrl := none
  topics := []
  licenseSpdx := none

def buildRepositoryFromPayload (payload : WebhookRepository) : Repository :=
  { minimalRepository (toString payload.id) payload.name with
    nodeId := payload.nodeId
    visibility := match payload.visibility with
      | some "public" => .public
      | some "internal" => .internal
      | _ => .private
    defaultBranch := payload.defaultBranch.getD "main"
    archived := payload.archived
    htmlUrl := payload.htmlUrl }

section Mapping

variable (s : AppState)

/-- Reading a poisoned projection is a panic. -/
def projectionGet {ε : Type} (key : String) : Except (Stop ε) (Option RepositoryEvidence) :=
  if s.projectionState.poisoned then .error .panic
  else .ok s.projectionState.value.repositories[key]?

def resolveOrBuildRepo (inventoryKey : String) (payload : WebhookRepository) :
    Except (Stop WebhookError) Repository := do
  match ← projectionGet s inventoryKey with
  | some evidence => pure evidence.repository
  | none => pure (buildRepositoryFromPayload payload)

def resolveRepoFromStore (inventoryKey repoName : String) :
    Except (Stop WebhookError) Repository := do
  match ← projectionGet s inventoryKey with
  | some evidence => pure evidence.repository
  | none => pure (minimalRepository inventoryKey repoName)

variable (decoder : Decoder) (body : List UInt8)

def decoded {α : Type} (x : Except String α) : Except (Stop WebhookError) α :=
  x.mapError fun e => .error (.invalidJson e)

def repositoryOf (payload : WebhookPayload) : Except (Stop WebhookError) WebhookRepository :=
  match payload.repository with
  | some repository => .ok repository
  | none => .error (.error .missingRepository)

def mapRepositoryEvent : Except (Stop WebhookError) WebhookAction := do
  let payload ← decoded (decoder.payload body)
  let action := payload.action.getD ""
  let repoPayload ← repositoryOf payload
  let inventoryKey := toString repoPayload.id
  if action = "deleted" ∨ action = "archived" then pure (.remove inventoryKey)
  else if action = "created" ∨ action = "unarchived" ∨ action = "publicized"
      ∨ action = "privatized" then
    let repo ← resolveOrBuildRepo s inventoryKey repoPayload
    pure (.enqueue inventoryKey repo)
  else pure .ignore

def mapPushEvent : Except (Stop WebhookError) WebhookAction := do
  let payload ← decoded (decoder.push body)
  if isSecurityRelevantPush payload then
    let inventoryKey := toString payload.repository.id
    let repo ← resolveRepoFromStore s inventoryKey payload.repository.name
    pure (.enqueue inventoryKey repo)
  else pure .ignore

def mapGenericEnqueueEvent : Except (Stop WebhookError) WebhookAction := do
  let payload ← decoded (decoder.payload body)
  let repoPayload ← repositoryOf payload
  let inventoryKey := toString repoPayload.id
  let repo ← resolveOrBuildRepo s inventoryKey repoPayload
  pure (.enqueue inventoryKey repo)

def genericEvents : List String :=
  ["branch_protection_configuration", "branch_protection_rule", "dependabot_alert",
    "code_scanning_alert", "secret_scanning_alert", "member"]

def mapEventToAction (eventType : String) : Except (Stop WebhookError) WebhookAction :=
  if eventType = "repository" then mapRepositoryEvent s decoder body
  else if eventType ∈ genericEvents then mapGenericEnqueueEvent s decoder body
  else if eventType = "push" then mapPushEvent s decoder body
  else pure .ignore

end Mapping

/-! ## What an event is about -/

/-- Two actions of one kind, on one key. -/
inductive WebhookAction.Agrees : WebhookAction → WebhookAction → Prop where
  | enqueue (inventoryKey : String) (repo repo' : Repository) :
      Agrees (.enqueue inventoryKey repo) (.enqueue inventoryKey repo')
  | remove (inventoryKey : String) : Agrees (.remove inventoryKey) (.remove inventoryKey)
  | ignore : Agrees .ignore .ignore

section Agreement

variable {s s' : AppState} {decoder : Decoder} {body : List UInt8} {a a' : WebhookAction}

/-- A repository that is looked up decides nothing but the job's context. -/
theorem agrees_of_enqueued {x x' : Except (Stop WebhookError) Repository} {inventoryKey : String}
    (h : (x >>= fun repo => pure (.enqueue inventoryKey repo)) = Except.ok a)
    (h' : (x' >>= fun repo => pure (.enqueue inventoryKey repo)) = Except.ok a') : a.Agrees a' := by
  obtain ⟨repo, -, ha⟩ := Except.bind_eq_ok_iff.mp h
  obtain ⟨repo', -, ha'⟩ := Except.bind_eq_ok_iff.mp h'
  cases ha
  cases ha'
  exact .enqueue inventoryKey repo repo'

theorem mapRepositoryEvent_agrees (h : mapRepositoryEvent s decoder body = .ok a)
    (h' : mapRepositoryEvent s' decoder body = .ok a') : a.Agrees a' := by
  obtain ⟨payload, hpayload, h⟩ := Except.bind_eq_ok_iff.mp h
  obtain ⟨payload', hpayload', h'⟩ := Except.bind_eq_ok_iff.mp h'
  cases hpayload.symm.trans hpayload'
  obtain ⟨repository, hrepository, h⟩ := Except.bind_eq_ok_iff.mp h
  obtain ⟨repository', hrepository', h'⟩ := Except.bind_eq_ok_iff.mp h'
  cases hrepository.symm.trans hrepository'
  dsimp only at h h'
  split at h
  · next hremove =>
    rw [if_pos hremove] at h'
    cases h
    cases h'
    exact .remove _
  · next hremove =>
    rw [if_neg hremove] at h'
    split at h
    · next henqueue =>
      rw [if_pos henqueue] at h'
      exact agrees_of_enqueued h h'
    · next henqueue =>
      rw [if_neg henqueue] at h'
      cases h
      cases h'
      exact .ignore

theorem mapPushEvent_agrees (h : mapPushEvent s decoder body = .ok a)
    (h' : mapPushEvent s' decoder body = .ok a') : a.Agrees a' := by
  obtain ⟨payload, hpayload, h⟩ := Except.bind_eq_ok_iff.mp h
  obtain ⟨payload', hpayload', h'⟩ := Except.bind_eq_ok_iff.mp h'
  cases hpayload.symm.trans hpayload'
  split at h
  · next hpush =>
    rw [if_pos hpush] at h'
    exact agrees_of_enqueued h h'
  · next hpush =>
    rw [if_neg hpush] at h'
    cases h
    cases h'
    exact .ignore

theorem mapGenericEnqueueEvent_agrees (h : mapGenericEnqueueEvent s decoder body = .ok a)
    (h' : mapGenericEnqueueEvent s' decoder body = .ok a') : a.Agrees a' := by
  obtain ⟨payload, hpayload, h⟩ := Except.bind_eq_ok_iff.mp h
  obtain ⟨payload', hpayload', h'⟩ := Except.bind_eq_ok_iff.mp h'
  cases hpayload.symm.trans hpayload'
  obtain ⟨repository, hrepository, h⟩ := Except.bind_eq_ok_iff.mp h
  obtain ⟨repository', hrepository', h'⟩ := Except.bind_eq_ok_iff.mp h'
  cases hrepository.symm.trans hrepository'
  exact agrees_of_enqueued h h'

/-- A redelivered event asks for the same again, whatever the projection holds by then. -/
theorem mapEventToAction_agrees {eventType : String}
    (h : mapEventToAction s decoder body eventType = .ok a)
    (h' : mapEventToAction s' decoder body eventType = .ok a') : a.Agrees a' := by
  unfold mapEventToAction at h h'
  split at h
  · next hrepository =>
    rw [if_pos hrepository] at h'
    exact mapRepositoryEvent_agrees h h'
  · next hrepository =>
    rw [if_neg hrepository] at h'
    split at h
    · next hgeneric =>
      rw [if_pos hgeneric] at h'
      exact mapGenericEnqueueEvent_agrees h h'
    · next hgeneric =>
      rw [if_neg hgeneric] at h'
      split at h
      · next hpush =>
        rw [if_pos hpush] at h'
        exact mapPushEvent_agrees h h'
      · next hpush =>
        rw [if_neg hpush] at h'
        cases h
        cases h'
        exact .ignore

end Agreement

end GhReport.Webhook
