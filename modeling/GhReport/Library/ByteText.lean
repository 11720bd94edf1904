import Mathlib.Data.List.Basic
import Mathlib.Data.Nat.Notation

/-! # Texts addressed by bytes

Offsets into a text count the bytes of its UTF-8 encoding, and only those between
two characters cut it. Where every character is a single byte, offsets and
characters are counted alike.
-/

namespace ByteText

def bytes (text : List Char) : List UInt8 := text.flatMap String.utf8EncodeChar

/-- The byte of a character that is encoded by one. -/
def byte (c : Char) : UInt8 := c.val.toUInt8

/-- What is ahead of an offset; none where it is out of range or inside a character. -/
def dropBytes : List Char → ℕ → Option (List Char)
  | text, 0 => some text
  | [], _ + 1 => none
  | c :: text, n + 1 => if c.utf8Size ≤ n + 1 then dropBytes text (n + 1 - c.utf8Size) else none

/-- What is before an offset; none where it is out of range or inside a character. -/
def takeBytes : List Char → ℕ → Option (List Char)
  | _, 0 => some []
  | [], _ + 1 => none
  | c :: text, n + 1 =>
    if c.utf8Size ≤ n + 1 then (takeBytes text (n + 1 - c.utf8Size)).map (c :: ·) else none

/-- What is between two offsets. -/
def slice (text : List Char) (start stop : ℕ) : Option (List Char) :=
  if start ≤ stop then (takeBytes text stop).bind fun read => dropBytes read start else none

theorem length_le_of_dropBytes {text rest : List Char} {n : ℕ}
    (h : dropBytes text n = some rest) : rest.length ≤ text.length := by
  induction text generalizing n with
  | nil =>
    cases n with
    | zero =>
      cases h
      exact Nat.le_refl _
    | succ n => cases h
  | cons c text ih =>
    cases n with
    | zero =>
      cases h
      exact Nat.le_refl _
    | succ n =>
      rw [dropBytes] at h
      split at h
      · exact Nat.le_succ_of_le (ih h)
      · cases h

theorem length_lt_of_dropBytes {text rest : List Char} {n : ℕ}
    (h : dropBytes text (n + 1) = some rest) : rest.length < text.length := by
  cases text with
  | nil => cases h
  | cons c text =>
    rw [dropBytes] at h
    split at h
    · exact Nat.lt_succ_of_le (length_le_of_dropBytes h)
    · cases h

/-! ## Single bytes -/

/-- Every character is encoded by one byte. -/
def Ascii (text : List Char) : Prop := ∀ c ∈ text, c.utf8Size = 1

variable {text : List Char}

theorem Ascii.mono (h : Ascii text) {text' : List Char} (hsub : ∀ c ∈ text', c ∈ text) :
    Ascii text' :=
  fun c hc => h c (hsub c hc)

theorem Ascii.take (h : Ascii text) (n : ℕ) : Ascii (text.take n) :=
  h.mono fun _ => List.mem_of_mem_take

theorem Ascii.bytes_eq (h : Ascii text) : bytes text = text.map byte := by
  unfold bytes
  induction text with
  | nil => rfl
  | cons c text ih =>
    obtain ⟨hc, htext⟩ := List.forall_mem_cons.mp h
    rw [List.flatMap_cons, String.utf8EncodeChar_eq_singleton hc, ih htext]
    rfl

theorem Ascii.length_bytes (h : Ascii text) : (bytes text).length = text.length := by
  rw [h.bytes_eq, List.length_map]

theorem Ascii.dropBytes_eq (h : Ascii text) {n : ℕ} (hn : n ≤ text.length) :
    dropBytes text n = some (text.drop n) := by
  induction text generalizing n with
  | nil =>
    obtain rfl : n = 0 := Nat.le_zero.mp hn
    rfl
  | cons c text ih =>
    obtain ⟨hc, htext⟩ := List.forall_mem_cons.mp h
    cases n with
    | zero => rfl
    | succ n =>
      rw [dropBytes, hc, if_pos (Nat.le_add_left ..), Nat.add_sub_cancel,
        ih htext (Nat.le_of_succ_le_succ hn), List.drop_succ_cons]

theorem Ascii.takeBytes_eq (h : Ascii text) {n : ℕ} (hn : n ≤ text.length) :
    takeBytes text n = some (text.take n) := by
  induction text generalizing n with
  | nil =>
    obtain rfl : n = 0 := Nat.le_zero.mp hn
    rfl
  | cons c text ih =>
    obtain ⟨hc, htext⟩ := List.forall_mem_cons.mp h
    cases n with
    | zero => rfl
    | succ n =>
      rw [takeBytes, hc, if_pos (Nat.le_add_left ..), Nat.add_sub_cancel,
        ih htext (Nat.le_of_succ_le_succ hn), List.take_succ_cons]
      rfl

/-- A cut in range is a cut of the characters. -/
theorem Ascii.slice_eq (h : Ascii text) {start stop : ℕ} (hstart : start ≤ stop)
    (hstop : stop ≤ text.length) : slice text start stop = some ((text.take stop).drop start) := by
  have hlength : start ≤ (text.take stop).length := by
    rw [List.length_take, Nat.min_eq_left hstop]
    exact hstart
  rw [slice, if_pos hstart, h.takeBytes_eq hstop, Option.bind_some,
    (h.take stop).dropBytes_eq hlength]

theorem byte_inj {c d : Char} (hc : c.utf8Size = 1) (hd : d.utf8Size = 1) :
    byte c = byte d ↔ c = d := by
  refine ⟨fun h => ?_, congrArg byte⟩
  rw [Char.utf8Size_eq_one_iff, UInt32.le_iff_toNat_le] at hc hd
  have hnat := congrArg UInt8.toNat h
  simp only [byte, UInt32.toNat_toUInt8] at hnat
  have h127 : (127 : UInt32).toNat = 127 := rfl
  refine Char.ext (UInt32.toNat_inj.mp ?_)
  omega

end ByteText
