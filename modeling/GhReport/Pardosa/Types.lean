import GhReport.Library.ByteCodec
import Mathlib.Algebra.Group.Nat.Defs

/-! # The event vocabulary and its primitive codecs

Bounded strings and lists carry their bound. The codecs of the integers,
`Option`, the bounded wrappers, timestamps and ids belong to the event store
and enter as parameters with the prefix round trip as their law.
-/

namespace GhReport.Pardosa

open ByteCodec

/-- A bound on a length; lengths are written in four bytes. -/
abbrev Limit := Fin (2 ^ 32)

/-- A string of at most `max` bytes. -/
structure EventString (max : Limit) where
  text : String
  size_le : text.utf8ByteSize ≤ max
deriving DecidableEq

/-- A non-empty string of at most `max` bytes. -/
structure NonEmptyEventString (max : Limit) where
  text : String
  ne_empty : text ≠ ""
  size_le : text.utf8ByteSize ≤ max
deriving DecidableEq

/-- A list of at most `max` elements. -/
structure EventVec (α : Type) (max : Limit) where
  items : List α
  length_le : items.length ≤ max
deriving DecidableEq

/-- A non-zero count of nanoseconds since the epoch. -/
structure Timestamp where
  nanos : UInt64
  ne_zero : nanos ≠ 0
deriving DecidableEq

/-- A 128-bit identifier; the two `Uuid` types of the source wrap the same bits. -/
structure Uuid where
  bits : BitVec 128
deriving DecidableEq

@[ext] theorem EventString.ext {max : Limit} {a b : EventString max} (h : a.text = b.text) :
    a = b := by
  cases a; cases b; simpa using h

@[ext] theorem NonEmptyEventString.ext {max : Limit} {a b : NonEmptyEventString max}
    (h : a.text = b.text) : a = b := by
  cases a; cases b; simpa using h

/-- Construction checks the bound. -/
def EventString.new (max : Limit) (text : String) : Option (EventString max) :=
  if h : text.utf8ByteSize ≤ max then some ⟨text, h⟩ else none

/-- Construction checks the bound and rejects the empty string. -/
def NonEmptyEventString.new (max : Limit) (text : String) : Option (NonEmptyEventString max) :=
  if h : text ≠ "" ∧ text.utf8ByteSize ≤ max then some ⟨text, h.1, h.2⟩ else none

/-- Construction checks the number of elements. -/
def EventVec.new {α : Type} (max : Limit) (items : List α) : Option (EventVec α max) :=
  if h : items.length ≤ max then some ⟨items, h⟩ else none

/-- Construction rejects zero. -/
def Timestamp.new (nanos : UInt64) : Option Timestamp :=
  if h : nanos ≠ 0 then some ⟨nanos, h⟩ else none

@[simp] theorem EventString.new_text {max : Limit} (s : EventString max) :
    EventString.new max s.text = some s := by
  simp [EventString.new, s.size_le]

@[simp] theorem NonEmptyEventString.new_text {max : Limit} (s : NonEmptyEventString max) :
    NonEmptyEventString.new max s.text = some s := by
  simp [NonEmptyEventString.new, s.ne_empty, s.size_le]

@[simp] theorem EventVec.new_items {α : Type} {max : Limit} (v : EventVec α max) :
    EventVec.new max v.items = some v := by
  simp [EventVec.new, v.length_le]

@[simp] theorem Timestamp.new_nanos (t : Timestamp) : Timestamp.new t.nanos = some t := by
  simp [Timestamp.new, t.ne_zero]

theorem NonEmptyEventString.text_of_new {max : Limit} {text : String} {s : NonEmptyEventString max}
    (h : NonEmptyEventString.new max text = some s) : s.text = text := by
  unfold NonEmptyEventString.new at h
  split at h
  · cases h; rfl
  · cases h

theorem EventVec.items_of_new {α : Type} {max : Limit} {items : List α} {v : EventVec α max}
    (h : EventVec.new max items = some v) : v.items = items := by
  unfold EventVec.new at h
  split at h
  · cases h; rfl
  · cases h

/-- An encoding failure, reported by a primitive codec. -/
inductive EncodeError where
  | primitive (message : String)
deriving DecidableEq

/-- A decoding failure: the two the event codecs report, and those of the primitive codecs. -/
inductive DecodeError where
  | truncatedPayload (expected available : ℕ)
  | unknownVariantDiscriminant (discriminant : UInt32)
  | primitive (message : String)
deriving DecidableEq

/-- A codec with the errors of the event store. -/
abbrev EventCodec (α : Type) := Codec EncodeError DecodeError α

/-- The codecs the event store provides. -/
structure Primitives where
  u8 : EventCodec UInt8
  u16 : EventCodec UInt16
  u32 : EventCodec UInt32
  u64 : EventCodec UInt64
  bool : EventCodec Bool
  option : {α : Type} → EventCodec α → EventCodec (Option α)
  eventString : (max : Limit) → EventCodec (EventString max)
  nonEmptyEventString : (max : Limit) → EventCodec (NonEmptyEventString max)
  eventVec : {α : Type} → EventCodec α → (max : Limit) → EventCodec (EventVec α max)
  timestamp : EventCodec Timestamp
  uuid : EventCodec Uuid

/--
The prefix round trip of every primitive codec. A `u8` is its own byte, which is what lets a
pushed tag be read with `u8`'s decoder.
-/
structure Primitives.Lawful (P : Primitives) : Prop where
  u8 : ReadsByte P.u8
  u16 : P.u16.Lawful
  u32 : P.u32.Lawful
  u64 : P.u64.Lawful
  bool : P.bool.Lawful
  option : ∀ {α : Type} {c : EventCodec α}, c.Lawful → (P.option c).Lawful
  eventString (max : Limit) : (P.eventString max).Lawful
  nonEmptyEventString (max : Limit) : (P.nonEmptyEventString max).Lawful
  eventVec {α : Type} {c : EventCodec α} (hc : c.Lawful) (max : Limit) :
    (P.eventVec c max).Lawful
  timestamp : P.timestamp.Lawful
  uuid : P.uuid.Lawful

end GhReport.Pardosa
