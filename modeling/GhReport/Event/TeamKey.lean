import GhReport.Event.Types
import Mathlib.Data.List.Basic

/-! # Keys of teams

The token of a team spells its organisation and slug out byte for byte, so teams
of one organisation have distinct tokens.
-/

namespace GhReport.Event

theorem hexDigit_injective {a b : UInt8} (ha : a.toNat < 16) (hb : b.toNat < 16)
    (h : hexDigit a = hexDigit b) : a = b := by
  have hdigits : ∀ m < 16, ∀ n < 16,
      "0123456789abcdef".toList.getD m '0' = "0123456789abcdef".toList.getD n '0' → m = n := by
    decide
  exact UInt8.toNat_inj.mp (hdigits _ ha _ hb h)

theorem hexByte_injective {a b : UInt8} (h : hexByte a = hexByte b) : a = b := by
  have hnibbles : ∀ c : UInt8,
      (c >>> 4).toNat = c.toNat / 16 ∧ (c &&& 0x0f).toNat = c.toNat % 16 := by
    intro c
    constructor
    · rw [UInt8.toNat_shiftRight, Nat.shiftRight_eq_div_pow]
      rfl
    · rw [UInt8.toNat_and]
      exact Nat.and_two_pow_sub_one_eq_mod c.toNat 4
  have hlt : ∀ c : UInt8, (c >>> 4).toNat < 16 ∧ (c &&& 0x0f).toNat < 16 := by
    intro c
    have := c.toNat_lt
    rw [(hnibbles c).1, (hnibbles c).2]
    omega
  simp only [hexByte, List.cons.injEq, and_true] at h
  have hhigh := congrArg UInt8.toNat (hexDigit_injective (hlt a).1 (hlt b).1 h.1)
  have hlow := congrArg UInt8.toNat (hexDigit_injective (hlt a).2 (hlt b).2 h.2)
  rw [(hnibbles a).1, (hnibbles b).1] at hhigh
  rw [(hnibbles a).2, (hnibbles b).2] at hlow
  apply UInt8.toNat_inj.mp
  omega

theorem nibble_lt (b : UInt8) : (b >>> 4).toNat < 16 ∧ (b &&& 0x0f).toNat < 16 := by
  have hlt := b.toNat_lt
  constructor
  · rw [UInt8.toNat_shiftRight, Nat.shiftRight_eq_div_pow]
    exact Nat.div_lt_of_lt_mul hlt
  · rw [UInt8.toNat_and]
    exact Nat.and_lt_two_pow _ (by decide : (0x0f : UInt8).toNat < 2 ^ 4)

/-- What holds of every digit holds of every character of a spelling. -/
theorem forall_mem_flatMap_hexByte {P : Char → Prop}
    (h : ∀ n < 16, P (hexDigit (UInt8.ofNat n))) (bytes : List UInt8) :
    ∀ c ∈ bytes.flatMap hexByte, P c := by
  have hdigit : ∀ v : UInt8, v.toNat < 16 → P (hexDigit v) := fun v hv => by
    simpa using h v.toNat hv
  intro c hc
  obtain ⟨b, -, hb⟩ := List.mem_flatMap.mp hc
  rcases List.mem_cons.mp hb with rfl | hb
  · exact hdigit _ (nibble_lt b).1
  · obtain rfl := List.mem_singleton.mp hb
    exact hdigit _ (nibble_lt b).2

theorem flatMap_hexByte_injective {xs ys : List UInt8}
    (h : xs.flatMap hexByte = ys.flatMap hexByte) : xs = ys := by
  induction xs generalizing ys with
  | nil =>
    cases ys with
    | nil => rfl
    | cons y ys => simp [hexByte] at h
  | cons x xs ih =>
    cases ys with
    | nil => simp [hexByte] at h
    | cons y ys =>
      rw [List.flatMap_cons, List.flatMap_cons] at h
      obtain ⟨hbyte, hrest⟩ := List.append_inj h rfl
      rw [hexByte_injective hbyte, ih hrest]

theorem teamDomainKey_injective {org a b key : String} (ha : teamDomainKey org a = .ok key)
    (hb : teamDomainKey org b = .ok key) : a = b := by
  have hspell : ∀ {slug}, teamDomainKey org slug = .ok key →
      key = "team_" ++ String.ofList
        ((org.toUTF8.data.toList ++ 0x1F :: slug.toUTF8.data.toList).flatMap hexByte) := by
    intro slug h
    unfold teamDomainKey at h
    split at h
    · cases h
    · split at h
      · cases h
      · cases h
        rfl
  have hsame := (hspell ha).symm.trans (hspell hb)
  have hlists := congrArg String.toList hsame
  simp only [String.toList_append, String.toList_ofList, List.append_cancel_left_eq] at hlists
  have hbytes := List.append_cancel_left (flatMap_hexByte_injective hlists)
  rw [List.cons.injEq, Array.toList_inj] at hbytes
  exact String.toByteArray_inj.mp (ByteArray.ext hbytes.2)

end GhReport.Event
