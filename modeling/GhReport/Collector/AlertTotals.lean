import GhReport.Collector.SecretAlerts
import GhReport.Library.KeyMap
import Mathlib.Data.String.Basic
import Mathlib.Data.UInt
import Mathlib.Tactic.Abel

/-! # Totals of organisation alerts

Each part of the summary is a fold of its own over the alerts. The parts count
the same alerts, whatever the order of them, and only an alert that takes
authority away touches the status.
-/

namespace GhReport.Collector.SecretScanning

open Domain GitHub
open Event (CollectionStatus)

/-! ## What one alert does -/

section Step

variable (clock : AlertClock) (now : ℤ) (scope : KeyMap Repository)

/-- The scope key that an alert is counted under. -/
def attributedKey (alert : Json) : Option String :=
  match correlateAlert alert scope with
  | .matched repo => some (scopeKey repo)
  | _ => none

/-- The alert names no repository, or two. -/
def degrades (alert : Json) : Bool :=
  match correlateAlert alert scope with
  | .conflicting | .unidentifiable => true
  | _ => false

def statusStep (status : CollectionStatus) (alert : Json) : CollectionStatus :=
  if degrades scope alert then .unavailable else status

def countStep (n : UInt64) (alert : Json) : UInt64 :=
  if (attributedKey scope alert).isSome then n + 1 else n

def timeStep (keepOldest : Bool) (time : Option String) (alert : Json) : Option String :=
  if (attributedKey scope alert).isSome then track time (createdTime clock alert) keepOldest
  else time

def perRepoStep (perRepo : KeyMap RepoAlertSummary) (alert : Json) : KeyMap RepoAlertSummary :=
  match attributedKey scope alert with
  | none => perRepo
  | some key =>
    perRepo.insert key
      (countAlert ((perRepo[key]?).getD emptyRepoSummary) (createdTime clock alert))

def bucketStep (buckets : KeyMap UInt64) (alert : Json) : KeyMap UInt64 :=
  if (attributedKey scope alert).isSome then
    buckets.insert (bucketKey clock now alert) ((buckets[bucketKey clock now alert]?).getD 0 + 1)
  else buckets

variable (summary : OrgAlertSummary) (alert : Json)

theorem collectionStatus_processAlert :
    (processAlert clock now scope summary alert).collectionStatus =
      statusStep scope summary.collectionStatus alert := by
  unfold processAlert statusStep degrades
  cases correlateAlert alert scope <;> rfl

theorem total_processAlert :
    (processAlert clock now scope summary alert).totalOpenSecretAlerts =
      countStep scope summary.totalOpenSecretAlerts alert := by
  unfold processAlert countStep attributedKey
  cases correlateAlert alert scope <;> rfl

theorem oldest_processAlert :
    (processAlert clock now scope summary alert).oldestOpenSecretAlertCreatedAt =
      timeStep clock scope true summary.oldestOpenSecretAlertCreatedAt alert := by
  unfold processAlert timeStep attributedKey
  cases correlateAlert alert scope <;> rfl

theorem newest_processAlert :
    (processAlert clock now scope summary alert).newestOpenSecretAlertCreatedAt =
      timeStep clock scope false summary.newestOpenSecretAlertCreatedAt alert := by
  unfold processAlert timeStep attributedKey
  cases correlateAlert alert scope <;> rfl

theorem perRepo_processAlert :
    (processAlert clock now scope summary alert).perRepo =
      perRepoStep clock scope summary.perRepo alert := by
  unfold processAlert perRepoStep attributedKey
  cases correlateAlert alert scope <;> rfl

theorem buckets_processAlert :
    (processAlert clock now scope summary alert).openSecretAlertAgeBuckets =
      bucketStep clock now scope summary.openSecretAlertAgeBuckets alert := by
  unfold processAlert bucketStep attributedKey
  cases correlateAlert alert scope <;> rfl

end Step

/-! ## The order of alerts -/

section Order

variable (clock : AlertClock) (now : ℤ) (scope : KeyMap Repository)

theorem track_some (existing candidate : String) (keepOldest : Bool) :
    track (some existing) (some candidate) keepOldest =
      some (if keepOldest then min existing candidate else max existing candidate) := by
  cases keepOldest with
  | true =>
    simp only [track, trackTimestamp, not_true_eq_false, false_and, or_false, true_and, if_true]
    split
    · next h => rw [min_eq_right h.le]
    · next h => rw [min_eq_left (not_lt.mp h)]
  | false =>
    simp only [track, trackTimestamp, Bool.false_eq_true, not_false_eq_true, true_and, false_and,
      false_or, if_false]
    split
    · next h => rw [max_eq_right h.le]
    · next h => rw [max_eq_left (not_lt.mp h)]

theorem track_right_comm (current a b : Option String) (keepOldest : Bool) :
    track (track current a keepOldest) b keepOldest =
      track (track current b keepOldest) a keepOldest := by
  cases a with
  | none => rfl
  | some a =>
    cases b with
    | none => rfl
    | some b =>
      cases current with
      | none =>
        have hstart : ∀ c, track none (some c) keepOldest = some c := fun _ => rfl
        rw [hstart, hstart, track_some, track_some, min_comm, max_comm]
      | some current =>
        rw [track_some, track_some, track_some, track_some]
        cases keepOldest with
        | true => simp only [if_true, min_right_comm]
        | false => simp only [Bool.false_eq_true, if_false, max_right_comm]

theorem countAlert_right_comm (s : RepoAlertSummary) (a b : Option String) :
    countAlert (countAlert s a) b = countAlert (countAlert s b) a := by
  simp only [countAlert, track_right_comm _ a b]

theorem statusStep_right_comm (status : CollectionStatus) (a b : Json) :
    statusStep scope (statusStep scope status a) b =
      statusStep scope (statusStep scope status b) a := by
  unfold statusStep
  split <;> split <;> rfl

theorem countStep_right_comm (n : UInt64) (a b : Json) :
    countStep scope (countStep scope n a) b = countStep scope (countStep scope n b) a := by
  unfold countStep
  split <;> split <;> rfl

theorem timeStep_right_comm (keepOldest : Bool) (time : Option String) (a b : Json) :
    timeStep clock scope keepOldest (timeStep clock scope keepOldest time a) b =
      timeStep clock scope keepOldest (timeStep clock scope keepOldest time b) a := by
  unfold timeStep
  split <;> split <;> first | rfl | exact track_right_comm ..

theorem perRepoStep_right_comm (perRepo : KeyMap RepoAlertSummary) (a b : Json) :
    perRepoStep clock scope (perRepoStep clock scope perRepo a) b =
      perRepoStep clock scope (perRepoStep clock scope perRepo b) a := by
  unfold perRepoStep
  cases attributedKey scope a with
  | none => rfl
  | some key =>
    cases attributedKey scope b with
    | none => rfl
    | some key' =>
      exact KeyMap.insert_comm
        (f := fun old => countAlert (old.getD emptyRepoSummary) (createdTime clock a))
        (g := fun old => countAlert (old.getD emptyRepoSummary) (createdTime clock b))
        fun v => (countAlert_right_comm _ _ _).symm

theorem bucketStep_right_comm (buckets : KeyMap UInt64) (a b : Json) :
    bucketStep clock now scope (bucketStep clock now scope buckets a) b =
      bucketStep clock now scope (bucketStep clock now scope buckets b) a := by
  unfold bucketStep
  split <;> split <;> first | rfl | skip
  exact KeyMap.insert_comm (f := fun old => old.getD 0 + 1) (g := fun old => old.getD 0 + 1)
    fun v => rfl

/-- Summaries that differ at most in the reason and in the HTTP status. -/
structure SameTotals (s t : OrgAlertSummary) : Prop where
  status : s.collectionStatus = t.collectionStatus
  total : s.totalOpenSecretAlerts = t.totalOpenSecretAlerts
  perRepo : s.perRepo = t.perRepo
  buckets : s.openSecretAlertAgeBuckets = t.openSecretAlertAgeBuckets
  oldest : s.oldestOpenSecretAlertCreatedAt = t.oldestOpenSecretAlertCreatedAt
  newest : s.newestOpenSecretAlertCreatedAt = t.newestOpenSecretAlertCreatedAt

variable {clock now scope} {alerts alerts' : List Json}

/-- A part that changes with each alert by itself, in either order, is the same in any order. -/
theorem part_perm {τ : Type} {get : OrgAlertSummary → τ} {step : τ → Json → τ}
    (hget : ∀ s alert, get (processAlert clock now scope s alert) = step (get s) alert)
    (hcomm : ∀ t a b, step (step t a) b = step (step t b) a) (h : alerts.Perm alerts')
    (s : OrgAlertSummary) :
    get (alerts.foldl (processAlert clock now scope) s) =
      get (alerts'.foldl (processAlert clock now scope) s) := by
  rw [← List.foldl_hom get fun s alert => (hget s alert).symm,
    ← List.foldl_hom get fun s alert => (hget s alert).symm]
  exact h.foldl_eq' (fun a _ b _ t => hcomm t a b) _

theorem sameTotals_of_perm (h : alerts.Perm alerts') (s : OrgAlertSummary) :
    SameTotals (alerts.foldl (processAlert clock now scope) s)
      (alerts'.foldl (processAlert clock now scope) s) where
  status := part_perm (collectionStatus_processAlert clock now scope)
    (statusStep_right_comm scope) h s
  total := part_perm (total_processAlert clock now scope) (countStep_right_comm scope) h s
  perRepo := part_perm (perRepo_processAlert clock now scope)
    (perRepoStep_right_comm clock scope) h s
  buckets := part_perm (buckets_processAlert clock now scope)
    (bucketStep_right_comm clock now scope) h s
  oldest := part_perm (oldest_processAlert clock now scope)
    (timeStep_right_comm clock scope true) h s
  newest := part_perm (newest_processAlert clock now scope)
    (timeStep_right_comm clock scope false) h s

end Order

/-! ## Conservation -/

section Conservation

variable {clock : AlertClock} {now : ℤ} {scope : KeyMap Repository}

/-- The alerts in all are those of the repositories, and those of the buckets. -/
structure Conserved (s : OrgAlertSummary) : Prop where
  perRepo : KeyMap.total RepoAlertSummary.openAlertCount s.perRepo = s.totalOpenSecretAlerts
  buckets : KeyMap.total id s.openSecretAlertAgeBuckets = s.totalOpenSecretAlerts

theorem total_insert_countAlert (perRepo : KeyMap RepoAlertSummary) (key : String)
    (created : Option String) :
    KeyMap.total RepoAlertSummary.openAlertCount (perRepo.insert key
      (countAlert ((perRepo[key]?).getD emptyRepoSummary) created)) =
      KeyMap.total RepoAlertSummary.openAlertCount perRepo + 1 := by
  have h := KeyMap.total_insert RepoAlertSummary.openAlertCount perRepo key
    (countAlert ((perRepo[key]?).getD emptyRepoSummary) created)
  cases hkey : perRepo[key]? with
  | none =>
    rw [hkey, Option.elim_none, add_zero] at h
    rw [h, add_comm]
    rfl
  | some existing =>
    rw [hkey, Option.elim_some, Option.getD_some] at h
    refine add_right_cancel (b := existing.openAlertCount) (h.trans ?_)
    simp only [countAlert]
    abel

theorem total_insert_bucket (buckets : KeyMap UInt64) (bucket : String) :
    KeyMap.total id (buckets.insert bucket ((buckets[bucket]?).getD 0 + 1)) =
      KeyMap.total id buckets + 1 := by
  have h := KeyMap.total_insert id buckets bucket ((buckets[bucket]?).getD 0 + 1)
  cases hbucket : buckets[bucket]? with
  | none =>
    rw [hbucket, Option.elim_none, add_zero] at h
    rw [h, add_comm]
    rfl
  | some n =>
    rw [hbucket, Option.elim_some, Option.getD_some] at h
    refine add_right_cancel (b := n) (h.trans ?_)
    simp only [id]
    abel

theorem Conserved.step {s : OrgAlertSummary} (h : Conserved s) (alert : Json) :
    Conserved (processAlert clock now scope s alert) := by
  constructor
  · rw [perRepo_processAlert, total_processAlert, perRepoStep, countStep, ← h.perRepo]
    cases attributedKey scope alert with
    | none => rfl
    | some key => exact total_insert_countAlert ..
  · rw [buckets_processAlert, total_processAlert, bucketStep, countStep, ← h.buckets]
    split
    · exact total_insert_bucket ..
    · rfl

theorem total_emptyAgeBuckets : KeyMap.total id (emptyAgeBuckets : KeyMap UInt64) = 0 := by
  decide +kernel

theorem Conserved.foldl {s : OrgAlertSummary} (h : Conserved s) (alerts : List Json) :
    Conserved (alerts.foldl (processAlert clock now scope) s) := by
  induction alerts generalizing s with
  | nil => exact h
  | cons alert alerts ih => exact ih (h.step alert)

theorem Conserved.of_empty {s : OrgAlertSummary} (hperRepo : s.perRepo = ∅)
    (hbuckets : s.openSecretAlertAgeBuckets = emptyAgeBuckets)
    (htotal : s.totalOpenSecretAlerts = 0) : Conserved s := by
  constructor
  · rw [hperRepo, htotal, KeyMap.total_empty]
  · rw [hbuckets, htotal, total_emptyAgeBuckets]

end Conservation

/-! ## Attribution -/

section Attribution

variable (clock : AlertClock) (now : ℤ) (scope : KeyMap Repository)

/-- An alert changes the entry of the repository that it is attributed to, and no other. -/
theorem attributedKey_of_changed {s : OrgAlertSummary} {alert : Json} {key : String}
    (h : (processAlert clock now scope s alert).perRepo[key]? ≠ s.perRepo[key]?) :
    attributedKey scope alert = some key := by
  rw [perRepo_processAlert, perRepoStep] at h
  cases hkey : attributedKey scope alert with
  | none =>
    rw [hkey] at h
    exact absurd rfl h
  | some key' =>
    rw [hkey] at h
    by_contra hne
    have hne' : key' ≠ key := fun e => hne (congrArg some e)
    exact h (KeyMap.getElem?_insert_ne _ hne' _)

def entryCount (perRepo : KeyMap RepoAlertSummary) (key : String) : UInt64 :=
  (perRepo[key]?).elim 0 RepoAlertSummary.openAlertCount

theorem entryCount_processAlert (s : OrgAlertSummary) (alert : Json) (key : String) :
    entryCount (processAlert clock now scope s alert).perRepo key =
      entryCount s.perRepo key + if attributedKey scope alert = some key then 1 else 0 := by
  rw [perRepo_processAlert, perRepoStep]
  cases hkey : attributedKey scope alert with
  | none => simp
  | some key' =>
    rcases eq_or_ne key' key with rfl | hk
    · simp only [entryCount, KeyMap.getElem?_insert_same, if_true]
      cases s.perRepo[key']? <;> rfl
    · simp only [entryCount, KeyMap.getElem?_insert_ne _ hk, Option.some.injEq, if_neg hk, add_zero]

/-- The count of a repository is that of the alerts attributed to it. -/
theorem entryCount_foldl (alerts : List Json) (s : OrgAlertSummary) (key : String) :
    entryCount (alerts.foldl (processAlert clock now scope) s).perRepo key =
      entryCount s.perRepo key +
        UInt64.ofNat (alerts.countP fun alert => attributedKey scope alert = some key) := by
  induction alerts generalizing s with
  | nil => exact (add_zero _).symm
  | cons alert alerts ih =>
    rw [List.foldl_cons, ih, entryCount_processAlert, List.countP_cons, UInt64.ofNat_add, add_assoc,
      add_comm (UInt64.ofNat _)]
    congr 2
    simp only [decide_eq_true_eq]
    split <;> rfl

end Attribution

/-! ## Collection -/

/-- A run that returned the alerts as one whole listing. -/
def listing (status : UInt16) (alerts : List Json) (attempts : ℕ) (haltTriggered : Bool) :
    RequestRun :=
  ⟨.success status (some (.array alerts)) false attempts, haltTriggered⟩

variable {clock : AlertClock} {repositories : List Repository} {runTimestamp : String}
  {run : RequestRun}

/-- A request that returned no whole listing leaves a summary without alerts. -/
theorem conserved_of_error {summary : OrgAlertSummary} (h : alertItems run = .error summary) :
    Conserved summary := by
  have hfailure : ∀ result, Conserved (buildFailureSummary result) := fun result =>
    .of_empty rfl rfl rfl
  have hmalformed : ∀ result, Conserved (malformedSummary result) := fun result =>
    .of_empty rfl rfl rfl
  have hevaluate : ∀ {result summary}, evaluateOrgAlertOutcome result = .error summary →
      Conserved summary := by
    intro result summary h
    unfold evaluateOrgAlertOutcome at h
    split at h
    · cases h
    · cases h
      exact hmalformed _
    · cases h
      exact hfailure _
    · cases h
      exact hfailure _
  unfold alertItems classifiedOrgOutcome at h
  split at h
  · cases h
    exact hmalformed _
  · exact hevaluate h

theorem conserved_collectOrgAlerts :
    Conserved (collectOrgAlerts clock run repositories runTimestamp) := by
  unfold collectOrgAlerts
  dsimp only
  cases h : alertItems run with
  | error summary => exact conserved_of_error h
  | ok items => exact (Conserved.of_empty rfl rfl rfl).foldl items

theorem statusStep_foldl (scope : KeyMap Repository) (alerts : List Json)
    {status : CollectionStatus} (h : status = .unavailable) :
    alerts.foldl (statusStep scope) status = .unavailable := by
  induction alerts generalizing status with
  | nil => exact h
  | cons alert alerts ih =>
    refine ih ?_
    unfold statusStep
    split
    · rfl
    · exact h

/-- The status of a listing is that of the inventory until an alert degrades it. -/
theorem status_listing (status : UInt16) (alerts : List Json) (attempts : ℕ) (halt : Bool) :
    (collectOrgAlerts clock (listing status alerts attempts halt) repositories
      runTimestamp).collectionStatus =
      alerts.foldl (statusStep (knownScope repositories).repos)
        (if (knownScope repositories).collision then .unavailable else .success) :=
  (List.foldl_hom OrgAlertSummary.collectionStatus fun s alert =>
    (collectionStatus_processAlert clock _ _ s alert).symm).symm

theorem statusStep_foldl_cases (scope : KeyMap Repository) (alerts : List Json)
    (status : CollectionStatus) :
    alerts.foldl (statusStep scope) status = status ∨
      alerts.foldl (statusStep scope) status = .unavailable := by
  induction alerts generalizing status with
  | nil => exact .inl rfl
  | cons alert alerts ih =>
    rw [List.foldl_cons]
    unfold statusStep
    split
    · exact .inr (statusStep_foldl scope alerts rfl)
    · exact ih status

theorem status_degraded_stays {status : UInt16} {alerts : List Json} {attempts : ℕ} {halt : Bool}
    (h : (collectOrgAlerts clock (listing status alerts attempts halt) repositories
      runTimestamp).collectionStatus ≠ .success) (more : List Json) :
    (collectOrgAlerts clock (listing status (alerts ++ more) attempts halt) repositories
      runTimestamp).collectionStatus =
      (collectOrgAlerts clock (listing status alerts attempts halt) repositories
        runTimestamp).collectionStatus := by
  rw [status_listing] at h ⊢
  rw [status_listing, List.foldl_append]
  have hunavailable : alerts.foldl (statusStep (knownScope repositories).repos)
      (if (knownScope repositories).collision then .unavailable else .success) = .unavailable := by
    rcases statusStep_foldl_cases (knownScope repositories).repos alerts
      (if (knownScope repositories).collision then .unavailable else .success) with hs | hs
    · rw [hs] at h ⊢
      split
      · rfl
      · next hc => exact absurd (if_neg hc) h
    · exact hs
  rw [hunavailable]
  exact statusStep_foldl _ more rfl

/--
The alerts of the summary are conserved and attributed once, in any order of the listing, and a
degraded summary stays degraded.
-/
theorem collectOrgAlerts_aggregates (clock : AlertClock) (repositories : List Repository)
    (runTimestamp : String) :
    (∀ run, Conserved (collectOrgAlerts clock run repositories runTimestamp)) ∧
      (∀ now scope s alert (key key' : String),
        (processAlert clock now scope s alert).perRepo[key]? ≠ s.perRepo[key]? →
        (processAlert clock now scope s alert).perRepo[key']? ≠ s.perRepo[key']? → key = key') ∧
      (∀ status attempts halt alerts alerts', alerts.Perm alerts' →
        SameTotals
          (collectOrgAlerts clock (listing status alerts attempts halt) repositories runTimestamp)
          (collectOrgAlerts clock (listing status alerts' attempts halt) repositories
            runTimestamp)) ∧
      ∀ status attempts halt alerts more,
        (collectOrgAlerts clock (listing status alerts attempts halt) repositories
          runTimestamp).collectionStatus ≠ .success →
        (collectOrgAlerts clock (listing status (alerts ++ more) attempts halt) repositories
          runTimestamp).collectionStatus =
          (collectOrgAlerts clock (listing status alerts attempts halt) repositories
            runTimestamp).collectionStatus := by
  refine ⟨fun run => conserved_collectOrgAlerts, ?_, ?_, ?_⟩
  · intro now scope s alert key key' h h'
    have hkey := attributedKey_of_changed clock now scope h
    have hkey' := attributedKey_of_changed clock now scope h'
    exact Option.some.inj (hkey.symm.trans hkey')
  · intro status attempts halt alerts alerts' h
    exact sameTotals_of_perm h _
  · intro status attempts halt alerts more h
    exact status_degraded_stays h more

def sampleRepository : Repository where
  id := "7"
  nodeId := some "R_7"
  name := "seven"
  visibility := .public
  language := none
  defaultBranch := "main"
  archived := false
  inventoryKey := "7"
  updatedAt := none
  hasIssues := false
  pushedAt := none
  createdAt := none
  description := none
  fork := false
  isEmpty := false
  htmlUrl := none
  topics := []
  licenseSpdx := none

def sampleAlert (id : ℤ) (nodeId : String) : Json :=
  .object [("repository", .object [("id", .number (.integer id)), ("node_id", .string nodeId)])]

def sampleClock : AlertClock := ⟨⟨fun _ => none, fun _ => none⟩, fun _ => "", 0⟩

/-- Two alerts of one repository, in either order, and one that no later alert makes up for. -/
theorem collectOrgAlerts_aggregates_seven :
    let collect (alerts : List Json) :=
      collectOrgAlerts sampleClock (listing 200 alerts 1 false) [sampleRepository] ""
    SameTotals (collect [sampleAlert 7 "", sampleAlert 8 "R_7"])
        (collect [sampleAlert 8 "R_7", sampleAlert 7 ""]) ∧
      (collect [.null]).collectionStatus ≠ .success ∧
      (collect ([.null] ++ [sampleAlert 7 ""])).collectionStatus =
        (collect [.null]).collectionStatus := by
  have hnull : (collectOrgAlerts sampleClock (listing 200 [.null] 1 false) [sampleRepository]
      "").collectionStatus ≠ .success := by decide +kernel
  obtain ⟨-, -, horder, hstays⟩ := collectOrgAlerts_aggregates sampleClock [sampleRepository] ""
  exact ⟨horder 200 1 false _ _ (.swap ..), hnull, hstays 200 1 false [.null] _ hnull⟩

end GhReport.Collector.SecretScanning
