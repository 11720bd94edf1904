import Mathlib.Data.List.Basic

/-! # Prefix codecs over byte buffers

An encoder extends a buffer and a decoder reads a value from the front of a
slice and reports how many bytes it used. A codec is lawful when decoding what
was encoded, whatever follows it, returns the value and its exact length.
-/

namespace ByteCodec

variable {ε δ α β S E : Type}

/-- A buffer extended in place, or the error of the write. -/
abbrev Write (ε : Type) := List UInt8 → Except ε (List UInt8)

/-- A value read from the front of a slice, with the number of bytes it took. -/
abbrev Read (δ α : Type) := List UInt8 → Except δ (α × ℕ)

/-- An encoder and a decoder for one type. -/
structure Codec (ε δ α : Type) where
  encode : α → Write ε
  decode : Read δ α

/-- `w` appends exactly `b` to every buffer. -/
def Writes (w : Write ε) (b : List UInt8) : Prop :=
  ∀ buf, w buf = .ok (buf ++ b)

/-- `r` reads `v` from `b` and uses exactly `b`, whatever follows it. -/
def Reads (r : Read δ α) (b : List UInt8) (v : α) : Prop :=
  ∀ s, r (b ++ s) = .ok (v, b.length)

/-- Every value encodes, and decodes back from its bytes in front of any suffix. -/
def Codec.Lawful (c : Codec ε δ α) : Prop :=
  ∀ v, ∃ b, Writes (c.encode v) b ∧ Reads c.decode b v

theorem Codec.Lawful.round_trip {c : Codec ε δ α} (h : c.Lawful) (v : α) (s : List UInt8) :
    ∃ b, c.encode v [] = .ok b ∧ c.decode (b ++ s) = .ok (v, b.length) := by
  obtain ⟨b, hw, hr⟩ := h v
  exact ⟨b, by simpa using hw [], hr s⟩

/-! ## Cursor arithmetic and sequencing -/

@[simp] theorem drop_one_add (x : UInt8) (l : List UInt8) (n : ℕ) :
    (x :: l).drop (1 + n) = l.drop n := by
  rw [Nat.add_comm, List.drop_succ_cons]

@[simp] theorem drop_length_add (b l : List UInt8) (n : ℕ) :
    (b ++ l).drop (b.length + n) = l.drop n := by
  rw [← List.drop_drop, List.drop_left]

@[simp] theorem ok_bind (x : α) (f : α → Except ε β) : (Except.ok x >>= f) = f x := rfl

/-! ## One-byte enumerations -/

/-- Append one byte. -/
def push (x : UInt8) : Write ε := fun buf => .ok (buf ++ [x])

/--
A type without payloads, given by its values and their discriminants: one byte, refused when
it is missing or unknown.
-/
def discriminants [DecidableEq α] (truncated : δ) (unknown : UInt8 → δ)
    (variants : List (α × UInt8)) : Codec ε δ α where
  encode v := push (((variants.find? fun p => p.1 = v).map Prod.snd).getD 0)
  decode
    | [] => .error truncated
    | x :: _ =>
      match variants.find? fun p => p.2 = x with
      | some p => .ok (p.1, 1)
      | none => .error (unknown x)

/-- The list names every value, and no byte twice. -/
def Discriminates [DecidableEq α] (variants : List (α × UInt8)) : Prop :=
  ∀ v, ∃ x, variants.find? (fun p => p.1 = v) = some (v, x) ∧
    variants.find? (fun p => p.2 = x) = some (v, x)

theorem discriminants_lawful [DecidableEq α] {truncated : δ} {unknown : UInt8 → δ}
    {variants : List (α × UInt8)} (h : Discriminates variants) :
    (discriminants truncated unknown variants : Codec ε δ α).Lawful := by
  intro v
  obtain ⟨x, hv, hx⟩ := h v
  refine ⟨[x], fun buf => by simp [discriminants, push, hv], fun s => ?_⟩
  simp [discriminants, hx]

/-! ## Field lists -/

/--
A list of fields of a source `S`, written in order, and the constructor read back from
them so far, applied to the fields already read.
-/
structure Fields (ε δ S α : Type) where
  encode : S → Write ε
  decode : List UInt8 → ℕ → Except δ (α × ℕ)

/-- No field yet: the constructor alone. -/
def Fields.of (make : α) : Fields ε δ S α where
  encode _ buf := .ok buf
  decode _ cursor := .ok (make, cursor)

/-- One more field, read at the cursor the fields before it left. -/
def Fields.field (f : Fields ε δ S (β → α)) (get : S → β) (c : Codec ε δ β) :
    Fields ε δ S α where
  encode s buf := do
    let buf ← f.encode s buf
    c.encode (get s) buf
  decode buf cursor := do
    let (make, cursor) ← f.decode buf cursor
    let (x, n) ← c.decode (buf.drop cursor)
    .ok (make x, cursor + n)

/-- A record: its fields in order, read from the start of the slice. -/
def Fields.struct (f : Fields ε δ S S) : Codec ε δ S where
  encode := f.encode
  decode buf := f.decode buf 0

/-- Reading after any prefix rebuilds `k s` and moves the cursor past what `s` wrote. -/
def Fields.Lawful (f : Fields ε δ S α) (k : S → α) : Prop :=
  ∀ s, ∃ b, Writes (f.encode s) b ∧
    ∀ p t, f.decode (p ++ (b ++ t)) p.length = .ok (k s, p.length + b.length)

theorem Fields.lawful_of (make : α) :
    (Fields.of make : Fields ε δ S α).Lawful fun _ => make := by
  intro s
  exact ⟨[], fun buf => by simp [Fields.of], fun p t => rfl⟩

theorem Fields.Lawful.field {f : Fields ε δ S (β → α)} {k : S → β → α} {get : S → β}
    {c : Codec ε δ β} (h : f.Lawful k) (hc : c.Lawful) :
    (f.field get c).Lawful fun s => k s (get s) := by
  intro s
  obtain ⟨b, hw, hr⟩ := h s
  obtain ⟨b', hw', hr'⟩ := hc (get s)
  refine ⟨b ++ b', fun buf => ?_, fun p t => ?_⟩
  · change (f.encode s buf >>= fun buf => c.encode (get s) buf) = _
    rw [hw, ← List.append_assoc]
    exact hw' (buf ++ b)
  · have hf := hr p (b' ++ t)
    have hx := hr' t
    simp only [Fields.field, List.append_assoc, hf, ok_bind, drop_length_add,
      List.drop_left, hx, List.length_append, Nat.add_assoc]

theorem Fields.Lawful.struct {f : Fields ε δ S S} {k : S → S} (h : f.Lawful k)
    (hk : ∀ s, k s = s) : f.struct.Lawful := by
  intro s
  obtain ⟨b, hw, hr⟩ := h s
  rw [hk] at hr
  exact ⟨b, hw, fun t => by simpa [Fields.struct] using hr [] t⟩

/-! ## Tagged unions -/

/-- Write a tag and then the fields of one variant. -/
def variant (tag : UInt8) (f : Fields ε δ S E) (s : S) : Write ε := fun buf => do
  let buf ← push tag buf
  f.encode s buf

/-- A union whose decoder reads the tag with the one-byte codec and then that variant's fields. -/
def tagged (u8 : Codec ε δ UInt8) (unknown : UInt8 → δ) (write : E → Write ε)
    (read : UInt8 → Option (List UInt8 → ℕ → Except δ (E × ℕ))) : Codec ε δ E where
  encode := write
  decode buf := do
    let (tag, cursor) ← u8.decode buf
    match read tag with
    | some fields => fields buf cursor
    | none => .error (unknown tag)

/-- The one-byte codec reads back the byte at the front, which is how tags are read. -/
def ReadsByte (u8 : Codec ε δ UInt8) : Prop :=
  ∀ x s, u8.decode (x :: s) = .ok (x, 1)

/-- The value `v` is written as some tag and field list, and that tag reads the same list. -/
inductive IsVariant (write : E → Write ε)
    (read : UInt8 → Option (List UInt8 → ℕ → Except δ (E × ℕ))) (v : E) : Prop where
  | intro {S : Type} (tag : UInt8) (f : Fields ε δ S E) (s : S) {k : S → E} (hf : f.Lawful k)
      (hk : k s = v) (hwrite : write v = variant tag f s) (hread : read tag = some f.decode)

theorem tagged_lawful {u8 : Codec ε δ UInt8} {unknown : UInt8 → δ} {write : E → Write ε}
    {read : UInt8 → Option (List UInt8 → ℕ → Except δ (E × ℕ))} (hu : ReadsByte u8)
    (h : ∀ v, IsVariant write read v) : (tagged u8 unknown write read).Lawful := by
  intro v
  obtain ⟨tag, f, s, hf, rfl, hwrite, hread⟩ := h v
  obtain ⟨b, hw, hr⟩ := hf s
  refine ⟨tag :: b, fun buf => ?_, fun t => ?_⟩
  · simp [tagged, hwrite, variant, push, hw (buf ++ [tag])]
  · have hx := hr [tag] t
    simp only [List.length_singleton, List.singleton_append] at hx
    simp only [tagged, List.cons_append, hu tag, ok_bind, hread, hx, List.length_cons,
      Nat.add_comm]

end ByteCodec
