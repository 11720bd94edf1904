import GhReport.Event.Convert
import Mathlib.Data.Int.Order.Basic

/-! # Events read back

An event becomes a domain value and an event again, and is the same: every bound
and every non-empty text of an event holds by its type, and the calendar reads
what it writes.
-/

namespace GhReport.Event

open Pardosa Limits

/-- Instants of 64-bit nanoseconds are represented, and what is rendered is read back. -/
structure Calendar.Inverts (C : Calendar) : Prop where
  represents : ∀ nanos : UInt64, ∃ text, C.fromNanosecond nanos.toNat = some text
  parses : ∀ (nanos : UInt64) (text : String), C.fromNanosecond nanos.toNat = some text →
    C.parseIso8601 text = some (nanos.toNat : ℤ)

/-! ## Fields -/

section Fields

variable {max : Limit} {α β : Type} (field : String)

@[simp] theorem toEs_text (s : EventString max) : toEs max field s.text = .ok s := by
  rw [toEs, EventString.new_text]

@[simp] theorem toNes_text (s : NonEmptyEventString max) : toNes max field s.text = .ok s := by
  rw [toNes, NonEmptyEventString.new_text]

@[simp] theorem toEsOpt_text (s : Option (EventString max)) :
    toEsOpt max field (s.map EventString.text) = .ok s := by
  cases s with
  | none => rfl
  | some s =>
    simp only [Option.map_some, toEsOpt, toEs_text]
    rfl

theorem mapM_map {f : β → α} {convert : α → Conv β} (h : ∀ b, convert (f b) = .ok b) (bs : List β) :
    (bs.map f).mapM convert = .ok bs := by
  induction bs with
  | nil => rfl
  | cons b bs ih =>
    rw [List.map_cons, List.mapM_cons, h, ih]
    rfl

theorem toEventVec_items {f : β → α} {convert : α → Conv β} (h : ∀ b, convert (f b) = .ok b)
    (v : EventVec β max) : toEventVec max field (v.items.map f) convert = .ok v := by
  rw [toEventVec, mapM_map h]
  simp only [bind, Except.bind, EventVec.new_items]

@[simp] theorem toEventVec_texts {max' : Limit} (element : String)
    (v : EventVec (EventString max') max) :
    toEventVec max field (v.items.map EventString.text) (toEs max' element) = .ok v :=
  toEventVec_items field (toEs_text element) v

variable {C : Calendar}

theorem tsRequired_tsToString (hC : C.Inverts) (t : Timestamp) :
    tsRequired C field (tsToString C t) = .ok t := by
  obtain ⟨text, htext⟩ := hC.represents t.nanos
  have hparse := hC.parses t.nanos text htext
  have hlt : t.nanos.toNat < 2 ^ 64 := t.nanos.toNat_lt
  have hrange : (0 : ℤ) ≤ t.nanos.toNat ∧ (t.nanos.toNat : ℤ) < 2 ^ 64 := by omega
  rw [tsToString, htext, Option.getD_some, tsRequired, hparse]
  dsimp only
  rw [if_pos hrange, Int.toNat_natCast, UInt64.ofNat_toNat, Timestamp.new_nanos]

theorem tsOpt_tsToString (hC : C.Inverts) (t : Option Timestamp) :
    tsOpt C field (t.map (tsToString C)) = .ok t := by
  cases t with
  | none => rfl
  | some t =>
    simp only [Option.map_some, tsOpt, tsRequired_tsToString field hC]
    rfl

end Fields

/-! ## Evidence -/

section Evidence

variable {C : Calendar} (hC : C.Inverts)

include hC

theorem Repository.tryFrom_toDomain (r : Repository) :
    Repository.tryFrom C (r.toDomain C) = .ok r := by
  have hupdatedAt : (r.updatedAt.map fun s => (⟨s.text, s.ne_empty⟩ : Domain.NonEmptyText)).mapM
      (fun s => toNes maxTimestampText "repository.updated_at" s.1) = .ok r.updatedAt := by
    cases r.updatedAt with
    | none => rfl
    | some s =>
      simp only [Option.map_some, Option.mapM_some, toNes_text]
      rfl
  simp only [Repository.tryFrom, Repository.toDomain, toNes_text, toEsOpt_text, toEventVec_texts,
    tsOpt_tsToString _ hC, hupdatedAt]
  rfl

theorem SecurityPolicyResult.tryFrom_toDomain (v : SecurityPolicyResult) :
    SecurityPolicyResult.tryFrom C (v.toDomain C) = .ok v := by
  cases v <;> simp only [SecurityPolicyResult.tryFrom, SecurityPolicyResult.toDomain,
    Domain.SecurityPolicyResult.timestamp, tsRequired_tsToString _ hC, toNes_text] <;> rfl

theorem SecretScanningResult.tryFrom_toDomain (v : SecretScanningResult) :
    SecretScanningResult.tryFrom C (v.toDomain C) = .ok v := by
  cases v <;> simp only [SecretScanningResult.tryFrom, SecretScanningResult.toDomain,
    Domain.SecretScanningResult.timestamp, tsRequired_tsToString _ hC] <;> rfl

theorem DependabotResult.tryFrom_toDomain (v : DependabotResult) :
    DependabotResult.tryFrom C (v.toDomain C) = .ok v := by
  simp only [DependabotResult.tryFrom, DependabotResult.toDomain, toEsOpt_text,
    tsRequired_tsToString _ hC]
  rfl

theorem BranchProtectionResult.tryFrom_toDomain (v : BranchProtectionResult) :
    BranchProtectionResult.tryFrom C (v.toDomain C) = .ok v := by
  cases v <;> simp only [BranchProtectionResult.tryFrom, BranchProtectionResult.toDomain,
    toNes_text, tsRequired_tsToString _ hC] <;> rfl

omit hC in
theorem CodeownersEntry.tryFrom_toDomain (v : CodeownersEntry) :
    CodeownersEntry.tryFrom v.toDomain = .ok v := by
  simp only [CodeownersEntry.tryFrom, CodeownersEntry.toDomain, toEs_text, toEventVec_texts]
  rfl

omit hC in
theorem ParsedCodeowners.tryFrom_toDomain (v : ParsedCodeowners) :
    ParsedCodeowners.tryFrom v.toDomain = .ok v := by
  simp only [ParsedCodeowners.tryFrom, ParsedCodeowners.toDomain, toEventVec_texts,
    toEventVec_items _ CodeownersEntry.tryFrom_toDomain]
  rfl

omit hC in
theorem CodeownersContent.tryFrom_toDomain (v : CodeownersContent) :
    CodeownersContent.tryFrom v.toDomain = .ok v := by
  cases v with
  | parsed value =>
    simp only [CodeownersContent.tryFrom, CodeownersContent.toDomain,
      ParsedCodeowners.tryFrom_toDomain]
    rfl
  | truncated reason => rfl
  | unparsed => rfl

theorem CodeownersResult.tryFrom_toDomain (v : CodeownersResult) :
    CodeownersResult.tryFrom C (v.toDomain C) = .ok v := by
  cases v <;> simp only [CodeownersResult.tryFrom, CodeownersResult.toDomain,
    Domain.CodeownersResult.timestamp, tsRequired_tsToString _ hC,
    CodeownersContent.tryFrom_toDomain] <;> rfl

theorem RepositoryChecks.tryFrom_toDomain (v : RepositoryChecks) :
    RepositoryChecks.tryFrom C (v.toDomain C) = .ok v := by
  simp only [RepositoryChecks.tryFrom, RepositoryChecks.toDomain,
    SecurityPolicyResult.tryFrom_toDomain hC, SecretScanningResult.tryFrom_toDomain hC,
    DependabotResult.tryFrom_toDomain hC, BranchProtectionResult.tryFrom_toDomain hC,
    CodeownersResult.tryFrom_toDomain hC]
  rfl

theorem LastCommitInfo.tryFrom_toDomain (v : LastCommitInfo) :
    LastCommitInfo.tryFrom C (v.toDomain C) = .ok v := by
  simp only [LastCommitInfo.tryFrom, LastCommitInfo.toDomain, toEsOpt_text, tsOpt_tsToString _ hC]
  rfl

/-- Evidence that was read back is written as it was. -/
theorem RepositoryEvidence.tryFrom_toDomain (v : RepositoryEvidence) :
    RepositoryEvidence.tryFrom C (v.toDomain C) = .ok v := by
  have hlastCommit : (v.lastCommit.map (LastCommitInfo.toDomain C)).mapM (LastCommitInfo.tryFrom C)
      = .ok v.lastCommit := by
    cases v.lastCommit with
    | none => rfl
    | some commit =>
      simp only [Option.map_some, Option.mapM_some, LastCommitInfo.tryFrom_toDomain hC]
      rfl
  simp only [RepositoryEvidence.tryFrom, RepositoryEvidence.toDomain,
    Repository.tryFrom_toDomain hC, RepositoryChecks.tryFrom_toDomain hC, hlastCommit]
  rfl

end Evidence

end GhReport.Event
