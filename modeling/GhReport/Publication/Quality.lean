import GhReport.Domain.Types
import GhReport.Library.KeyMap
import Mathlib.Data.Int.Notation

/-! # Publication quality

A candidate report is admitted over the displayed one only when its capture is
not older and nothing that the displayed report protects would be lost.
-/

namespace GhReport.Publication

open Domain

/-! ## Capture tokens -/

/-- A capture of the projection behind `source`: its place in the sequence and the deleted keys. -/
structure ProjectionCaptureToken where
  source : ℕ
  sequence : UInt64
  deletedKeys : List String
deriving DecidableEq

namespace ProjectionCaptureToken

def witnessesDeletion (token : ProjectionCaptureToken) (key : String) : Bool :=
  token.deletedKeys.contains key

def succeeds (token previous : ProjectionCaptureToken) : Bool :=
  token.source == previous.source && token.sequence ≥ previous.sequence

end ProjectionCaptureToken

/-- An observation made outside the projection, for the state behind `source`. -/
structure LiveObservationToken where
  source : ℕ
  sequence : UInt64
deriving DecidableEq

namespace LiveObservationToken

def succeeds (token previous : LiveObservationToken) : Bool :=
  token.source == previous.source && token.sequence ≥ previous.sequence

def belongsTo (token : LiveObservationToken) (projection : ProjectionCaptureToken) : Bool :=
  token.source == projection.source

end LiveObservationToken

inductive PublicationProvenance where
  | projection (token : ProjectionCaptureToken)
  | liveOverlay (projection : ProjectionCaptureToken) (live : LiveObservationToken)
  | unordered
deriving DecidableEq

/-- The capture that a candidate was rendered from. -/
def PublicationProvenance.token : PublicationProvenance → Option ProjectionCaptureToken
  | .projection token | .liveOverlay token _ => some token
  | .unordered => none

/-! ## Capture times -/

inductive CaptureTime where
  | missing
  | malformed
  | captured (instant : ℤ)
deriving DecidableEq

namespace CaptureTime

variable (parseTimestamp : String → Option ℤ)

def parse : Option String → CaptureTime
  | none | some "" => .missing
  | some value =>
    match parseTimestamp value with
    | some instant => .captured instant
    | none => .malformed

/-- The older of two capture times; one that is unreadable outranks one that is missing. -/
def oldest : CaptureTime → CaptureTime → CaptureTime
  | .malformed, _ | _, .malformed => .malformed
  | .missing, _ | _, .missing => .missing
  | .captured a, .captured b => .captured (min a b)

def fromChecks (checks : RepositoryChecks) : CaptureTime :=
  match (RepositoryReadState.observedCheckTimestamps checks).filterMap
    fun timestamp => timestamp.map fun value => parse parseTimestamp (some value) with
  | [] => .missing
  | first :: rest => rest.foldl oldest first

def preserves : CaptureTime → CaptureTime → Bool
  | .captured new, .captured old => new ≥ old
  | .captured _, _ => true
  | _, _ => false

end CaptureTime

/-! ## Protected entries -/

/-- The part of the evidence that the quality of a publication is read from. -/
structure Evidence where
  repositories : List RepositoryEvidence
  teamRosters : List TeamRoster

structure ProtectedEntry (T : Type) where
  complete : Bool
  captured : CaptureTime
  content : T

structure PublicationQuality where
  provenance : PublicationProvenance
  inventoryKnown : Bool
  repositories : KeyMap (ProtectedEntry RepositoryEvidence)
  rosters : KeyMap (ProtectedEntry TeamRoster)

/-- The entries of a list under their keys; a later entry replaces an earlier one. -/
def collect {T : Type} (entries : List (String × T)) : KeyMap T :=
  entries.foldl (fun m entry => m.insert entry.1 entry.2) ∅

def isObserved (evidence : RepositoryEvidence) : Bool :=
  RepositoryReadState.fromChecks evidence.checks == .observed

namespace PublicationQuality

variable (parseTimestamp : String → Option ℤ)

def observedEntry (evidence : RepositoryEvidence) : String × ProtectedEntry RepositoryEvidence :=
  (evidence.repository.inventoryKey,
    ⟨evidence.isComplete, CaptureTime.fromChecks parseTimestamp evidence.checks, evidence⟩)

def rosterEntry (roster : TeamRoster) : String × ProtectedEntry TeamRoster :=
  (roster.canonicalOwner, ⟨true, CaptureTime.parse parseTimestamp roster.fetchedAt, roster⟩)

/-- Observed repositories and complete rosters are protected. -/
def fromEvidence (provenance : PublicationProvenance) (inventoryKnown : Bool)
    (evidence : Evidence) : PublicationQuality where
  provenance := provenance
  inventoryKnown := inventoryKnown
  repositories :=
    collect ((evidence.repositories.filter isObserved).map (observedEntry parseTimestamp))
  rosters :=
    collect ((evidence.teamRosters.filter fun roster => roster.status == .complete).map
      (rosterEntry parseTimestamp))

/-- Whether repositories and rosters are ordered by their captures; `none` refuses the candidate. -/
def ordering (new previous : PublicationQuality) : Option (Bool × Bool) :=
  match new.provenance, previous.provenance with
  | .projection new, .projection old => if new.succeeds old then some (true, true) else none
  | .liveOverlay new live, .projection old =>
    if new.succeeds old && live.belongsTo new then some (true, true) else none
  | .liveOverlay new live, .liveOverlay old previousLive =>
    if new.succeeds old && live.belongsTo new && previousLive.belongsTo old
      && live.succeeds previousLive then some (true, true)
    else none
  | .projection new, .liveOverlay old _ =>
    if new.succeeds old && previous.rosters.isEmpty then some (true, false) else none
  | .unordered, .unordered => some (false, false)
  | _, _ => none

section Entries

variable {T : Type} (eq : T → T → Bool)

def preservesEntry (incoming previous : ProtectedEntry T) (ordered : Bool) : Bool :=
  (!previous.complete || incoming.complete)
    && (ordered || incoming.captured.preserves previous.captured
      || eq incoming.content previous.content)

def preservesEntries (incoming previous : KeyMap (ProtectedEntry T)) (ordered : Bool) : Bool :=
  previous.toList.all fun entry =>
    incoming[entry.1]?.any fun new => preservesEntry eq new entry.2 ordered

end Entries

/-- The deletion of a key that the capture of the candidate witnesses. -/
def witnessesDeletion (q : PublicationQuality) (key : String) : Bool :=
  q.provenance.token.any fun token => token.witnessesDeletion key

def preserves (new previous : PublicationQuality) : Bool :=
  match new.ordering previous with
  | none => false
  | some (repositoriesOrdered, rostersOrdered) =>
    (!previous.inventoryKnown || new.inventoryKnown)
      && previous.repositories.toList.all (fun entry =>
        match new.repositories[entry.1]? with
        | some incoming => preservesEntry RepositoryEvidence.eq incoming entry.2 repositoriesOrdered
        | none => repositoriesOrdered && new.witnessesDeletion entry.1)
      && preservesEntries (fun a b => a == b) new.rosters previous.rosters rostersOrdered

end PublicationQuality

/-! ## Admission -/

inductive PublicationStage where
  | warmStart
  | intermediate
  | terminal
deriving DecidableEq

structure PublicationCandidate where
  quality : PublicationQuality
  stage : PublicationStage

inductive AdmittedPublication where
  | current (candidate : PublicationCandidate)
  | retained (candidate : PublicationCandidate)

def AdmittedPublication.candidate : AdmittedPublication → PublicationCandidate
  | .current candidate | .retained candidate => candidate

/-- The last candidate was admitted; nothing earlier is shown in its place. -/
def AdmittedPublication.isCurrent : AdmittedPublication → Bool
  | .current _ => true
  | .retained _ => false

/-- What is displayed after a commit: the candidate, or the earlier report in its place. -/
def commitCachedPages (publication : Option AdmittedPublication)
    (candidate : PublicationCandidate) : AdmittedPublication :=
  match publication with
  | some previous =>
    if previous.candidate.stage ≠ .warmStart
        ∧ candidate.quality.preserves previous.candidate.quality = false then
      .retained previous.candidate
    else .current candidate
  | none => .current candidate

/-! ## What a quality protects -/

section Shows

variable {T : Type} (entries : KeyMap (ProtectedEntry T)) (key : String)

/-- The report shows the key, as observed or as a roster. -/
def Shows : Prop := ∃ entry, entries[key]? = some entry

/-- The report shows the key, and as complete. -/
def ShowsComplete : Prop := ∃ entry, entries[key]? = some entry ∧ entry.complete = true

variable {entries key}

end Shows

/-- What the earlier report showed of a key, the later one still shows. -/
def Keeps {T : Type} (new previous : KeyMap (ProtectedEntry T)) (key : String) : Prop :=
  (Shows previous key → Shows new key) ∧ (ShowsComplete previous key → ShowsComplete new key)

section Keeps

variable {T : Type} {new between previous : KeyMap (ProtectedEntry T)} {key : String}

theorem Keeps.refl : Keeps previous previous key := ⟨id, id⟩

theorem Keeps.trans (h : Keeps new between key) (h' : Keeps between previous key) :
    Keeps new previous key :=
  ⟨fun hk => h.1 (h'.1 hk), fun hk => h.2 (h'.2 hk)⟩

theorem keeps_of_entry {incoming entry : ProtectedEntry T} (hprevious : previous[key]? = some entry)
    (hnew : new[key]? = some incoming) (h : entry.complete = true → incoming.complete = true) :
    Keeps new previous key := by
  constructor
  · intro _
    exact ⟨incoming, hnew⟩
  · rintro ⟨entry', hentry', hcomplete⟩
    rw [hprevious] at hentry'
    cases hentry'
    exact ⟨incoming, hnew, h hcomplete⟩

theorem Keeps.complete {incoming entry : ProtectedEntry T} (h : Keeps new previous key)
    (hprevious : previous[key]? = some entry) (hnew : new[key]? = some incoming)
    (hcomplete : entry.complete = true) : incoming.complete = true := by
  obtain ⟨incoming', hincoming', h'⟩ := h.2 ⟨entry, hprevious, hcomplete⟩
  rw [hnew] at hincoming'
  cases hincoming'
  exact h'

variable {eq : T → T → Bool}

theorem PublicationQuality.complete_of_preservesEntry {incoming entry : ProtectedEntry T}
    {ordered : Bool} (h : preservesEntry eq incoming entry ordered = true)
    (hcomplete : entry.complete = true) : incoming.complete = true := by
  simp only [preservesEntry, Bool.and_eq_true, Bool.or_eq_true, Bool.not_eq_true', hcomplete,
    Bool.true_eq_false, false_or] at h
  exact h.1

theorem PublicationQuality.preservesEntry_ordered {incoming entry : ProtectedEntry T} :
    preservesEntry eq incoming entry true = true ↔
      (entry.complete = true → incoming.complete = true) := by
  simp only [preservesEntry, Bool.true_or, Bool.and_true, Bool.or_eq_true, Bool.not_eq_true']
  cases entry.complete <;> simp

end Keeps

namespace PublicationQuality

variable {new previous : PublicationQuality}

/-- The candidate does not show the key and its capture witnesses the deletion. -/
def Excuses (q : PublicationQuality) (key : String) : Prop :=
  ¬ Shows q.repositories key ∧ q.witnessesDeletion key = true

/-- The candidate's capture follows the other's, if both come from captures. -/
def Follows (new previous : PublicationQuality) : Prop :=
  ∀ old, previous.provenance.token = some old →
    ∃ token, new.provenance.token = some token ∧ token.source = old.source ∧
      old.sequence ≤ token.sequence

theorem Follows.refl : Follows previous previous := by
  intro old hold
  exact ⟨old, hold, rfl, UInt64.le_refl _⟩

theorem Follows.trans {between : PublicationQuality} (h : Follows new between)
    (h' : Follows between previous) : Follows new previous := by
  intro old hold
  obtain ⟨middle, hmiddle, hsource, hle⟩ := h' old hold
  obtain ⟨token, htoken, hsource', hle'⟩ := h middle hmiddle
  exact ⟨token, htoken, hsource'.trans hsource, UInt64.le_trans hle hle'⟩

theorem succeeds_iff {token old : ProjectionCaptureToken} :
    token.succeeds old = true ↔ token.source = old.source ∧ old.sequence ≤ token.sequence := by
  simp only [ProjectionCaptureToken.succeeds, Bool.and_eq_true, beq_iff_eq, ge_iff_le,
    decide_eq_true_eq]

theorem follows_of_ordering {o : Bool × Bool} (h : new.ordering previous = some o) :
    new.Follows previous := by
  intro old hold
  have hsucceeds : ∃ token, new.provenance.token = some token ∧ token.succeeds old = true := by
    unfold ordering at h
    split at h
    · next hn hp =>
      rw [hp] at hold
      cases hold
      split at h
      · next hguard => exact ⟨_, by rw [hn]; rfl, hguard⟩
      · cases h
    · next hn hp =>
      rw [hp] at hold
      cases hold
      split at h
      · next hguard =>
        rw [Bool.and_eq_true] at hguard
        exact ⟨_, by rw [hn]; rfl, hguard.1⟩
      · cases h
    · next hn hp =>
      rw [hp] at hold
      cases hold
      split at h
      · next hguard =>
        simp only [Bool.and_eq_true] at hguard
        exact ⟨_, by rw [hn]; rfl, hguard.1.1.1⟩
      · cases h
    · next hn hp =>
      rw [hp] at hold
      cases hold
      split at h
      · next hguard =>
        rw [Bool.and_eq_true] at hguard
        exact ⟨_, by rw [hn]; rfl, hguard.1⟩
      · cases h
    · next hp =>
      rw [hp] at hold
      cases hold
    · cases h
  obtain ⟨token, htoken, h⟩ := hsucceeds
  exact ⟨token, htoken, succeeds_iff.mp h⟩

/-- What admission over a protected report says, entry by entry. -/
theorem preserves_iff : new.preserves previous = true ↔
    ∃ o, new.ordering previous = some o ∧
      (previous.inventoryKnown = true → new.inventoryKnown = true) ∧
      (∀ (key : String) entry, previous.repositories[key]? = some entry →
        match new.repositories[key]? with
        | some incoming => preservesEntry RepositoryEvidence.eq incoming entry o.1 = true
        | none => o.1 = true ∧ new.witnessesDeletion key = true) ∧
      ∀ (owner : String) entry, previous.rosters[owner]? = some entry →
        ∃ incoming, new.rosters[owner]? = some incoming ∧
          preservesEntry (fun a b => a == b) incoming entry o.2 = true := by
  unfold preserves
  cases hordering : new.ordering previous with
  | none => simp
  | some o =>
    obtain ⟨repositoriesOrdered, rostersOrdered⟩ := o
    simp only [preservesEntries, Bool.and_eq_true, Bool.or_eq_true, Bool.not_eq_true',
      List.all_eq_true, Prod.forall, Std.ExtTreeMap.mem_toList_iff_getElem?_eq_some,
      Option.any_eq_true, Option.some.injEq, exists_eq_left', and_assoc]
    refine and_congr ?_ (and_congr ?_ Iff.rfl)
    · cases previous.inventoryKnown <;> simp
    · refine forall_congr' fun key => forall_congr' fun entry => imp_congr_right fun _ => ?_
      cases new.repositories[key]? <;> simp

/-- Over a protected report an admitted candidate loses nothing but what its capture deleted. -/
theorem preserves_keeps (h : new.preserves previous = true) :
    new.Follows previous ∧ (previous.inventoryKnown = true → new.inventoryKnown = true) ∧
      (∀ key, Shows previous.repositories key →
        Keeps new.repositories previous.repositories key ∨ new.Excuses key) ∧
      ∀ owner, Keeps new.rosters previous.rosters owner := by
  obtain ⟨o, hordering, hknown, hrepositories, hrosters⟩ := preserves_iff.mp h
  refine ⟨follows_of_ordering hordering, hknown, ?_, ?_⟩
  · rintro key ⟨entry, hentry⟩
    have hkey := hrepositories key entry hentry
    split at hkey
    · next incoming hincoming =>
      exact .inl (keeps_of_entry hentry hincoming (complete_of_preservesEntry hkey))
    · next hnone =>
      refine .inr ⟨?_, hkey.2⟩
      rintro ⟨incoming, hincoming⟩
      rw [hnone] at hincoming
      cases hincoming
  · intro owner
    cases hprevious : previous.rosters[owner]? with
    | some entry =>
      obtain ⟨incoming, hincoming, hentry⟩ := hrosters owner entry hprevious
      exact keeps_of_entry hprevious hincoming (complete_of_preservesEntry hentry)
    | none =>
      constructor
      · rintro ⟨entry, hentry⟩
        rw [hprevious] at hentry
        cases hentry
      · rintro ⟨entry, hentry, -⟩
        rw [hprevious] at hentry
        cases hentry

/-- Where captures order what is shown, completeness is all that an entry has to keep. -/
theorem preserves_of_ordered {rostersOrdered : Bool}
    (hordering : new.ordering previous = some (true, rostersOrdered))
    (hknown : new.inventoryKnown = true)
    (hrepositories : ∀ key, Shows previous.repositories key →
      Keeps new.repositories previous.repositories key ∨ new.Excuses key)
    (hordered : ∀ owner, Shows previous.rosters owner → rostersOrdered = true)
    (hrosters : ∀ owner, Keeps new.rosters previous.rosters owner) :
    new.preserves previous = true := by
  refine preserves_iff.mpr ⟨_, hordering, fun _ => hknown, ?_, ?_⟩
  · intro key entry hentry
    rcases hrepositories key ⟨entry, hentry⟩ with hkeeps | ⟨hnot, hdeleted⟩
    · obtain ⟨incoming, hincoming⟩ := hkeeps.1 ⟨entry, hentry⟩
      rw [hincoming]
      exact preservesEntry_ordered.mpr (hkeeps.complete hentry hincoming)
    · cases hincoming : new.repositories[key]? with
      | some incoming => exact absurd ⟨incoming, hincoming⟩ hnot
      | none => exact ⟨rfl, hdeleted⟩
  · intro owner entry hentry
    obtain ⟨incoming, hincoming⟩ := (hrosters owner).1 ⟨entry, hentry⟩
    rw [hordered owner ⟨entry, hentry⟩]
    exact ⟨incoming, hincoming,
      preservesEntry_ordered.mpr ((hrosters owner).complete hentry hincoming)⟩

/-- A projection report over one whose capture it follows; a live overlay must show no roster. -/
theorem ordering_of_projection {token old : ProjectionCaptureToken}
    (hnew : new.provenance = .projection token) (hprevious : previous.provenance.token = some old)
    (h : token.succeeds old = true) :
    (previous.provenance = .projection old ∧ new.ordering previous = some (true, true)) ∨
      previous.provenance ≠ .projection old ∧
        new.ordering previous = if previous.rosters.isEmpty then some (true, false) else none := by
  unfold ordering
  rw [hnew]
  cases hp : previous.provenance with
  | projection old' =>
    rw [hp] at hprevious
    cases hprevious
    exact .inl ⟨rfl, if_pos h⟩
  | liveOverlay old' live =>
    rw [hp] at hprevious
    cases hprevious
    refine .inr ⟨nofun, ?_⟩
    simp only [h, Bool.true_and]
  | unordered =>
    rw [hp] at hprevious
    cases hprevious

end PublicationQuality

end GhReport.Publication
