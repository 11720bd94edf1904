import GhReport.Library.ByteCodec
import Mathlib.Data.Nat.Basic
import Mathlib.Tactic.Ring

/-! # Wire formats

Little-endian words of a fixed width, length-prefixed runs, tagged options and
values filtered by an invariant, each with its prefix round trip.
-/

namespace ByteCodec

variable {ε δ α β : Type}

/-! ## Little-endian words -/

/-- The low `w` bytes of `n`, least significant first. -/
def leBytes : ℕ → ℕ → List UInt8
  | 0, _ => []
  | w + 1, n => UInt8.ofNat n :: leBytes w (n / 256)

/-- The number whose bytes, least significant first, are given. -/
def ofLe : List UInt8 → ℕ
  | [] => 0
  | x :: l => x.toNat + 256 * ofLe l

@[simp] theorem length_leBytes (w n : ℕ) : (leBytes w n).length = w := by
  induction w generalizing n with
  | zero => rfl
  | succ w ih => simp [leBytes, ih]

theorem ofLe_leBytes (w n : ℕ) : ofLe (leBytes w n) = n % 256 ^ w := by
  induction w generalizing n with
  | zero => simp [leBytes, ofLe, Nat.mod_one]
  | succ w ih =>
    have hlow : (UInt8.ofNat n).toNat = n % 256 := by simp
    rw [leBytes, ofLe, ih, hlow, pow_succ', Nat.mod_mul]

theorem ofLe_leBytes_of_lt {w n : ℕ} (h : n < 256 ^ w) : ofLe (leBytes w n) = n := by
  rw [ofLe_leBytes, Nat.mod_eq_of_lt h]

/-- Exactly `w` bytes from the front, or the error of a short slice. -/
def takeBytes (short : δ) (w : ℕ) : Read δ (List UInt8) := fun buf =>
  if buf.length < w then .error short else .ok (buf.take w, w)

@[simp] theorem takeBytes_append (short : δ) (b s : List UInt8) :
    takeBytes short b.length (b ++ s) = .ok (b, b.length) := by
  simp [takeBytes]

/-- A word of `w` bytes. -/
def word (short : δ) (w : ℕ) (toNat : α → ℕ) (ofNat : ℕ → α) : Codec ε δ α where
  encode v buf := .ok (buf ++ leBytes w (toNat v))
  decode buf := do
    let (b, n) ← takeBytes short w buf
    .ok (ofNat (ofLe b), n)

theorem word_lawful {short : δ} {w : ℕ} {toNat : α → ℕ} {ofNat : ℕ → α}
    (hlt : ∀ v, toNat v < 256 ^ w) (hof : ∀ v, ofNat (toNat v) = v) :
    (word short w toNat ofNat : Codec ε δ α).Lawful := by
  intro v
  refine ⟨leBytes w (toNat v), fun _ => rfl, fun s => ?_⟩
  have h := takeBytes_append short (leBytes w (toNat v)) s
  rw [length_leBytes] at h
  simp [word, h, ofLe_leBytes_of_lt (hlt v), hof]

/-! ## Options and refinements -/

/-- A tag byte, `0` for none and `1` for some, and then the value. -/
def tagOption (short bad : δ) (c : Codec ε δ α) : Codec ε δ (Option α) where
  encode v buf := match v with
    | none => push 0 buf
    | some x => do
      let buf ← push 1 buf
      c.encode x buf
  decode buf := match buf with
    | [] => .error short
    | tag :: rest =>
      if tag = 0 then .ok (none, 1)
      else if tag = 1 then do
        let (x, n) ← c.decode rest
        .ok (some x, 1 + n)
      else .error bad

theorem tagOption_lawful {short bad : δ} {c : Codec ε δ α} (hc : c.Lawful) :
    (tagOption short bad c).Lawful := by
  intro v
  cases v with
  | none => exact ⟨[0], fun _ => rfl, fun _ => rfl⟩
  | some x =>
    obtain ⟨b, w, r⟩ := hc x
    exact ⟨1 :: b, fun buf => by simp [tagOption, push, w _],
      fun s => by simp [tagOption, r _, Nat.add_comm]⟩

/-- A codec for the values of `α` that `make` accepts; decoding refuses the others. -/
def refined (bad : δ) (c : Codec ε δ α) (raw : β → α) (make : α → Option β) : Codec ε δ β where
  encode v := c.encode (raw v)
  decode buf := do
    let (x, n) ← c.decode buf
    match make x with
    | some v => .ok (v, n)
    | none => .error bad

/-- One value survives the refinement when its underlying value survives the codec. -/
theorem refined_round_trip {bad : δ} {c : Codec ε δ α} {raw : β → α} {make : α → Option β} {v : β}
    (hmake : make (raw v) = some v)
    (h : ∃ b, Writes (c.encode (raw v)) b ∧ Reads c.decode b (raw v)) :
    ∃ b, Writes ((refined bad c raw make).encode v) b ∧
      Reads (refined bad c raw make).decode b v := by
  obtain ⟨b, w, r⟩ := h
  exact ⟨b, w, fun s => by simp [refined, r s, hmake]⟩

theorem refined_lawful {bad : δ} {c : Codec ε δ α} {raw : β → α} {make : α → Option β}
    (hc : c.Lawful) (hmake : ∀ v, make (raw v) = some v) :
    (refined bad c raw make).Lawful :=
  fun v => refined_round_trip (hmake v) (hc (raw v))

/-! ## Length-prefixed runs -/

/-- Read `n` values one after another. -/
def readMany (c : Codec ε δ α) : ℕ → Read δ (List α)
  | 0, _ => .ok ([], 0)
  | n + 1, buf => do
    let (x, used) ← c.decode buf
    let (xs, more) ← readMany c n (buf.drop used)
    .ok (x :: xs, used + more)

/-- Write values one after another. -/
def writeMany (c : Codec ε δ α) : List α → Write ε
  | [], buf => .ok buf
  | x :: xs, buf => do
    let buf ← c.encode x buf
    writeMany c xs buf

theorem many_lawful {c : Codec ε δ α} (hc : c.Lawful) (xs : List α) :
    ∃ b, Writes (writeMany c xs) b ∧ Reads (readMany c xs.length) b xs := by
  induction xs with
  | nil => exact ⟨[], fun buf => by simp [writeMany], fun s => rfl⟩
  | cons x xs ih =>
    obtain ⟨b, w, r⟩ := hc x
    obtain ⟨bs, ws, rs⟩ := ih
    exact ⟨b ++ bs, fun buf => by simp [writeMany, w buf, ws (buf ++ b)],
      fun s => by simp [readMany, r _, rs s]⟩

/-- A count of `w` bytes and then that many values. -/
def counted (short : δ) (w : ℕ) (c : Codec ε δ α) : Codec ε δ (List α) where
  encode xs buf := writeMany c xs (buf ++ leBytes w xs.length)
  decode buf := do
    let (b, n) ← takeBytes short w buf
    let (xs, used) ← readMany c (ofLe b) (buf.drop n)
    .ok (xs, n + used)

theorem counted_round_trip {short : δ} {w : ℕ} {c : Codec ε δ α} (hc : c.Lawful) {xs : List α}
    (h : xs.length < 256 ^ w) :
    ∃ b, Writes ((counted short w c).encode xs) b ∧ Reads (counted short w c).decode b xs := by
  obtain ⟨b, hw, hr⟩ := many_lawful hc xs
  refine ⟨leBytes w xs.length ++ b, fun buf => ?_, fun s => ?_⟩
  · simpa [counted] using hw (buf ++ leBytes w xs.length)
  have ht := takeBytes_append short (leBytes w xs.length) (b ++ s)
  have hd : (leBytes w xs.length ++ (b ++ s)).drop (leBytes w xs.length).length = b ++ s :=
    List.drop_left
  rw [length_leBytes] at ht hd
  simp [counted, ht, hd, ofLe_leBytes_of_lt h, hr s]

/-- One byte as itself. -/
def byte (short : δ) : Codec ε δ UInt8 where
  encode := push
  decode buf := match buf with
    | [] => .error short
    | x :: _ => .ok (x, 1)

theorem byte_lawful {short : δ} : (byte short : Codec ε δ UInt8).Lawful :=
  fun v => ⟨[v], fun _ => rfl, fun _ => rfl⟩

end ByteCodec
