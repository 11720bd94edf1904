import GhReport.Library.WireFormat
import GhReport.Pardosa.Types

/-! # A canonical encoding

Little-endian integers, tagged options and four-byte length prefixes. Decoding
re-checks the invariant of every bounded wrapper, and the round-trip laws hold.
-/

namespace GhReport.Pardosa

open ByteCodec

namespace Canonical

/-- The error of a slice that ends too early. -/
def short : DecodeError := .primitive "unexpected end of input"

/-- The error of bytes that name no value of the type. -/
def invalid : DecodeError := .primitive "invalid value"

def bool : EventCodec Bool :=
  refined invalid (byte short) (fun b => if b then 1 else 0)
    (fun x => if x = 0 then some false else if x = 1 then some true else none)

/-- The bytes of a string behind their number. -/
def text {α : Type} (raw : α → String) (make : String → Option α) : EventCodec α :=
  refined invalid (counted short 4 (byte short)) (fun v => (raw v).toUTF8.data.toList)
    (fun bytes => (String.fromUTF8? ⟨bytes.toArray⟩).bind make)

theorem fromUTF8_toUTF8 (s : String) :
    String.fromUTF8? ⟨s.toUTF8.data.toList.toArray⟩ = some s := by
  unfold String.fromUTF8?
  have h : (⟨s.toUTF8.data.toList.toArray⟩ : ByteArray) = s.toByteArray := by simp
  rw [h, dif_pos s.isValidUTF8]
  rfl

theorem text_lawful {α : Type} {raw : α → String} {make : String → Option α}
    (hmake : ∀ v, make (raw v) = some v) (hsize : ∀ v, (raw v).utf8ByteSize < 2 ^ 32) :
    (text raw make).Lawful := by
  intro v
  have hlen : (raw v).toUTF8.data.toList.length < 256 ^ 4 := by
    simpa using hsize v
  refine refined_round_trip ?_ (counted_round_trip byte_lawful hlen)
  simp only [fromUTF8_toUTF8, Option.bind_some, hmake]

end Canonical

open Canonical

/-- The canonical encoding of every primitive. -/
def canonical : Primitives where
  u8 := byte short
  u16 := word short 2 UInt16.toNat UInt16.ofNat
  u32 := word short 4 UInt32.toNat UInt32.ofNat
  u64 := word short 8 UInt64.toNat UInt64.ofNat
  bool := bool
  option := tagOption short invalid
  eventString max := text EventString.text (EventString.new max)
  nonEmptyEventString max := text NonEmptyEventString.text (NonEmptyEventString.new max)
  eventVec c max := refined invalid (counted short 4 c) EventVec.items (EventVec.new max)
  timestamp := refined invalid (word short 8 UInt64.toNat UInt64.ofNat) Timestamp.nanos
    Timestamp.new
  uuid := word short 16 (fun u => u.bits.toNat) fun n => ⟨BitVec.ofNat 128 n⟩

theorem canonical_lawful : canonical.Lawful where
  u8 := fun _ _ => rfl
  u16 := word_lawful UInt16.toNat_lt fun _ => UInt16.ofNat_toNat
  u32 := word_lawful UInt32.toNat_lt fun _ => UInt32.ofNat_toNat
  u64 := word_lawful UInt64.toNat_lt fun _ => UInt64.ofNat_toNat
  bool := refined_lawful byte_lawful fun b => by cases b <;> rfl
  option := tagOption_lawful
  eventString max :=
    text_lawful EventString.new_text fun v => lt_of_le_of_lt v.size_le max.isLt
  nonEmptyEventString max :=
    text_lawful NonEmptyEventString.new_text fun v => lt_of_le_of_lt v.size_le max.isLt
  eventVec hc max := by
    intro v
    have hlen : v.items.length < 256 ^ 4 := lt_of_le_of_lt v.length_le max.isLt
    exact refined_round_trip v.new_items (counted_round_trip hc hlen)
  timestamp := refined_lawful
    (word_lawful UInt64.toNat_lt fun _ => UInt64.ofNat_toNat) Timestamp.new_nanos
  uuid := word_lawful (fun u => u.bits.isLt) fun u => by simp

end GhReport.Pardosa
