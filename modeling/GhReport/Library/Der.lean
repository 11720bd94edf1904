import Mathlib.Data.Nat.Digits.Lemmas
import Mathlib.Data.UInt

/-! # Distinguished encoding

A value is encoded by a tag, the length of its contents, and the contents. Lengths
from 128 on are written as big-endian bytes after their number; an integer whose
first bit is set has a zero before it, which keeps it from being negative.
-/

namespace Der

/-! ## Numbers in bytes -/

/-- The bytes of a number, the most significant first and not zero. -/
def bigEndian (n : ℕ) : List UInt8 := ((Nat.digits 256 n).map UInt8.ofNat).reverse

/-- The number in big-endian bytes. -/
def value (bytes : List UInt8) : ℕ := bytes.foldl (fun n b => n * 256 + b.toNat) 0

@[simp] theorem length_bigEndian (n : ℕ) : (bigEndian n).length = (Nat.digits 256 n).length := by
  simp [bigEndian]

theorem value_reverse (ds : List ℕ) (h : ∀ d ∈ ds, d < 256) :
    value (ds.map UInt8.ofNat).reverse = Nat.ofDigits 256 ds := by
  rw [value, List.foldl_reverse]
  induction ds with
  | nil => rfl
  | cons d ds ih =>
    have hd : (UInt8.ofNat d).toNat = d := by
      rw [UInt8.toNat_ofNat', Nat.mod_eq_of_lt (h d (List.mem_cons_self ..))]
    rw [List.map_cons, List.foldr_cons, ih (fun x hx => h x (List.mem_cons_of_mem d hx)), hd,
      Nat.ofDigits_cons, Nat.mul_comm, Nat.add_comm]

@[simp] theorem value_bigEndian (n : ℕ) : value (bigEndian n) = n := by
  rw [bigEndian, value_reverse _ fun d hd => Nat.digits_lt_base (by decide) hd,
    Nat.ofDigits_digits]

theorem bigEndian_ne_nil {n : ℕ} (h : n ≠ 0) : bigEndian n ≠ [] := by
  rw [bigEndian, ne_eq, List.reverse_eq_nil_iff, List.map_eq_nil_iff]
  exact Nat.digits_ne_nil_iff_ne_zero.mpr h

theorem head_bigEndian_ne_zero {n : ℕ} {b : UInt8} {bs : List UInt8}
    (h : bigEndian n = b :: bs) : b ≠ 0 := by
  rintro rfl
  have hn : n ≠ 0 := by
    rintro rfl
    cases h
  have hlast := Nat.getLast_digit_ne_zero 256 hn
  have hmem : (Nat.digits 256 n).getLast (Nat.digits_ne_nil_iff_ne_zero.mpr hn) < 256 :=
    Nat.digits_lt_base (by decide) (List.getLast_mem _)
  have hhead : UInt8.ofNat ((Nat.digits 256 n).getLast (Nat.digits_ne_nil_iff_ne_zero.mpr hn))
      = 0 := by
    have hrev : (bigEndian n).head? = some 0 := by rw [h]; rfl
    rw [bigEndian, List.head?_reverse, List.getLast?_map,
      List.getLast?_eq_some_getLast (Nat.digits_ne_nil_iff_ne_zero.mpr hn)] at hrev
    exact Option.some_inj.mp hrev
  have hzero := congrArg UInt8.toNat hhead
  rw [UInt8.toNat_ofNat', Nat.mod_eq_of_lt hmem] at hzero
  exact hlast hzero

theorem bigEndian_pow (k : ℕ) : bigEndian (256 ^ k) = 1 :: List.replicate k 0 := by
  have hdigits := Nat.digits_base_pow_mul (k := k) (by decide : 1 < 256) (by decide : 0 < 1)
  rw [Nat.mul_one] at hdigits
  rw [bigEndian, hdigits]
  simp

/-! ## Encoding -/

def encodeLength (n : ℕ) : List UInt8 :=
  if n < 128 then [UInt8.ofNat n]
  else UInt8.ofNat (128 + (bigEndian n).length) :: bigEndian n

def encode (tag : UInt8) (contents : List UInt8) : List UInt8 :=
  tag :: (encodeLength contents.length ++ contents)

/-- The contents of an integer that is not negative. -/
def integerContents (n : ℕ) : List UInt8 :=
  match bigEndian n with
  | [] => [0]
  | b :: bs => if b < 128 then b :: bs else 0 :: b :: bs

def encodeInteger (n : ℕ) : List UInt8 := encode 2 (integerContents n)

/-- A sequence of the encodings in its contents. -/
def encodeSequence (contents : List UInt8) : List UInt8 := encode 0x30 contents

theorem length_bigEndian_le_iff {n k : ℕ} : (bigEndian n).length ≤ k ↔ n < 256 ^ k := by
  rw [length_bigEndian, Nat.digits_length_le_iff (by decide)]

/-- The contents of a positive integer have its bytes, and a zero before them in case. -/
theorem integerContents_cases {n : ℕ} (h : n ≠ 0) :
    (∃ b bs, bigEndian n = b :: bs ∧ b ≠ 0 ∧ integerContents n = b :: bs) ∨
      ∃ b bs, bigEndian n = b :: bs ∧ integerContents n = 0 :: b :: bs := by
  unfold integerContents
  cases hn : bigEndian n with
  | nil => exact absurd hn (bigEndian_ne_nil h)
  | cons b bs =>
    dsimp only
    split
    · exact .inl ⟨b, bs, rfl, head_bigEndian_ne_zero hn, rfl⟩
    · exact .inr ⟨b, bs, rfl, rfl⟩

end Der
