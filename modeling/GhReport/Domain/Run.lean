import GhReport.Event.TeamKey
import GhReport.Library.ByteText

/-! # Run ids

A run is named by sixteen bytes spelled out in hexadecimal digits, and correlated by
the bytes themselves. Reading the name back is partial, and inverts the spelling.
-/

namespace GhReport.Domain

open Event (hexDigit hexByte nibble_lt)

/-- The spelling of the random bytes of a run. -/
def generateRunId (bytes : List UInt8) : String := String.ofList (bytes.flatMap hexByte)

/-- A digit of any other kind is a panic. -/
def decodeHexNibble (c : UInt8) : Option UInt8 :=
  if 0x30 ≤ c ∧ c ≤ 0x39 then some (c - 0x30)
  else if 0x61 ≤ c ∧ c ≤ 0x66 then some (c - 0x61 + 10)
  else none

/-- Two digits at a time, high nibble first. -/
def decodeHexPairs : List UInt8 → Option (List UInt8)
  | hi :: lo :: rest => do
    let hi ← decodeHexNibble hi
    let lo ← decodeHexNibble lo
    let bytes ← decodeHexPairs rest
    pure ((hi <<< 4 ||| lo) :: bytes)
  | _ => some []

/-- The bytes that correlate the events of a run; a name of another form is a panic. -/
def correlationContext (runId : String) : Option (List UInt8) :=
  let hex := runId.toUTF8.data.toList
  if hex.length = 32 then decodeHexPairs hex else none

theorem decodeHexNibble_hexDigit {v : UInt8} (hv : v.toNat < 16) :
    decodeHexNibble (ByteText.byte (hexDigit v)) = some v := by
  have hdigits : ∀ n < 16,
      decodeHexNibble (ByteText.byte (hexDigit (UInt8.ofNat n))) = some (UInt8.ofNat n) := by
    decide
  simpa using hdigits v.toNat hv

theorem eq_hexDigit_of_decodeHexNibble {c v : UInt8} (h : decodeHexNibble c = some v) :
    v.toNat < 16 ∧ c = ByteText.byte (hexDigit v) := by
  have hdecimal : ∀ n < 10, (UInt8.ofNat (48 + n) - 0x30).toNat < 16 ∧
      UInt8.ofNat (48 + n) = ByteText.byte (hexDigit (UInt8.ofNat (48 + n) - 0x30)) := by
    decide
  have hletter : ∀ n < 6, (UInt8.ofNat (97 + n) - 0x61 + 10).toNat < 16 ∧
      UInt8.ofNat (97 + n) = ByteText.byte (hexDigit (UInt8.ofNat (97 + n) - 0x61 + 10)) := by
    decide
  unfold decodeHexNibble at h
  split_ifs at h with hrange hrange'
  · obtain ⟨hlo, hhi⟩ := hrange
    have hlo : 48 ≤ c.toNat := hlo
    have hhi : c.toNat ≤ 57 := hhi
    have hc : c = UInt8.ofNat (48 + (c.toNat - 48)) := by
      rw [Nat.add_sub_cancel' hlo, UInt8.ofNat_toNat]
    cases h
    rw [hc]
    exact hdecimal _ (by omega)
  · obtain ⟨hlo, hhi⟩ := hrange'
    have hlo : 97 ≤ c.toNat := hlo
    have hhi : c.toNat ≤ 102 := hhi
    have hc : c = UInt8.ofNat (97 + (c.toNat - 97)) := by
      rw [Nat.add_sub_cancel' hlo, UInt8.ofNat_toNat]
    cases h
    rw [hc]
    exact hletter _ (by omega)

theorem decodeHexNibble_iff {c v : UInt8} :
    decodeHexNibble c = some v ↔ v.toNat < 16 ∧ c = ByteText.byte (hexDigit v) := by
  constructor
  · exact eq_hexDigit_of_decodeHexNibble
  · rintro ⟨hv, rfl⟩
    exact decodeHexNibble_hexDigit hv

/-- The two nibbles of a byte, put together again. -/
theorem nibbles_eq_iff {b hi lo : UInt8} (hhi : hi.toNat < 16) (hlo : lo.toNat < 16) :
    hi <<< 4 ||| lo = b ↔ hi = b >>> 4 ∧ lo = b &&& 0x0f := by
  have hall : ∀ m < 16, ∀ n < 16,
      UInt8.ofNat m <<< 4 ||| UInt8.ofNat n = UInt8.ofNat (16 * m + n) ∧
        UInt8.ofNat m = UInt8.ofNat (16 * m + n) >>> 4 ∧
        UInt8.ofNat n = UInt8.ofNat (16 * m + n) &&& 0x0f := by
    decide
  constructor
  · rintro rfl
    obtain ⟨hor, hhigh, hlow⟩ := hall hi.toNat hhi lo.toNat hlo
    rw [UInt8.ofNat_toNat, UInt8.ofNat_toNat] at hor
    rw [UInt8.ofNat_toNat] at hhigh hlow
    rw [hor]
    exact ⟨hhigh, hlow⟩
  · rintro ⟨rfl, rfl⟩
    have hb : b = UInt8.ofNat (16 * (b.toNat / 16) + b.toNat % 16) := by
      rw [Nat.div_add_mod, UInt8.ofNat_toNat]
    have hlt := b.toNat_lt
    obtain ⟨hor, hhigh, hlow⟩ :=
      hall (b.toNat / 16) (by omega) (b.toNat % 16) (Nat.mod_lt _ (by decide))
    rw [← hb] at hor hhigh hlow
    rw [← hhigh, ← hlow, hor]

theorem decodeHexPairs_iff {hex bytes : List UInt8} (heven : hex.length % 2 = 0) :
    decodeHexPairs hex = some bytes ↔ hex = (bytes.flatMap hexByte).map ByteText.byte := by
  fun_induction decodeHexPairs hex generalizing bytes with
  | case1 hi lo rest ih =>
    have heven : rest.length % 2 = 0 := by
      rw [List.length_cons, List.length_cons] at heven
      omega
    simp only [Option.bind_eq_bind, Option.bind_eq_some_iff, Option.pure_def, Option.some.injEq,
      decodeHexNibble_iff, ih heven]
    constructor
    · rintro ⟨h, ⟨hh, rfl⟩, l, ⟨hl, rfl⟩, bytes, rfl, rfl⟩
      obtain ⟨hhigh, hlow⟩ := (nibbles_eq_iff hh hl).mp rfl
      rw [List.flatMap_cons, hexByte, ← hhigh, ← hlow]
      rfl
    · intro hspelt
      cases bytes with
      | nil => cases hspelt
      | cons b bytes =>
        rw [List.flatMap_cons, hexByte] at hspelt
        cases hspelt
        exact ⟨_, ⟨(nibble_lt b).1, rfl⟩, _, ⟨(nibble_lt b).2, rfl⟩, bytes, rfl,
          congrArg (· :: bytes) ((nibbles_eq_iff (nibble_lt b).1 (nibble_lt b).2).mpr ⟨rfl, rfl⟩)⟩
  | case2 hex hne =>
    have hnil : hex = [] := by
      cases hex with
      | nil => rfl
      | cons hi rest =>
        cases rest with
        | nil => cases heven
        | cons lo rest => exact absurd rfl (hne hi lo rest)
    subst hnil
    constructor
    · rintro ⟨⟩
      rfl
    · intro hspelt
      cases bytes with
      | nil => rfl
      | cons b bytes => cases hspelt

/-! ## Names and what they stand for -/

theorem bytes_generateRunId (bytes : List UInt8) :
    (generateRunId bytes).toUTF8.data.toList = (bytes.flatMap hexByte).map ByteText.byte := by
  have hascii : ByteText.Ascii (bytes.flatMap hexByte) :=
    Event.forall_mem_flatMap_hexByte (by decide) bytes
  rw [← hascii.bytes_eq]
  change (String.ofList (bytes.flatMap hexByte)).toByteArray.data.toList = _
  rw [String.toByteArray_ofList, List.utf8Encode, List.toList_data_toByteArray]
  rfl

theorem length_flatMap_hexByte (bytes : List UInt8) :
    (bytes.flatMap hexByte).length = 2 * bytes.length := by
  induction bytes with
  | nil => rfl
  | cons b bytes ih =>
    rw [List.flatMap_cons, List.length_append, ih, List.length_cons]
    change 2 + 2 * bytes.length = _
    omega

/--
A name is read back to the bytes of a run just if it is their spelling, and is
refused if it is the spelling of no sixteen bytes.
-/
theorem correlationContext_eq_some_iff {runId : String} {bytes : List UInt8} :
    correlationContext runId = some bytes ↔ bytes.length = 16 ∧ runId = generateRunId bytes := by
  have hlength : runId = generateRunId bytes →
      runId.toUTF8.data.toList.length = 2 * bytes.length := by
    rintro rfl
    rw [bytes_generateRunId, List.length_map, length_flatMap_hexByte]
  unfold correlationContext
  dsimp only
  split_ifs with hlen
  · rw [decodeHexPairs_iff (by rw [hlen]), ← bytes_generateRunId, Array.toList_inj]
    constructor
    · intro h
      have hspelt : runId = generateRunId bytes := String.toByteArray_inj.mp (ByteArray.ext h)
      have := hlength hspelt
      exact ⟨by omega, hspelt⟩
    · rintro ⟨-, rfl⟩
      rfl
  · refine ⟨fun h => (by cases h), ?_⟩
    rintro ⟨hbytes, hspelt⟩
    exact absurd (by rw [hlength hspelt, hbytes]) hlen

end GhReport.Domain
