import Mathlib.Data.List.Lex
import Mathlib.Data.Nat.Basic
import Mathlib.Algebra.Group.Nat.Defs
import Mathlib.Algebra.GroupWithZero.Nat

/-! # Fields of fixed width

Numbers are printed in decimal with zeros to their left. Texts of such fields, each
with its separator, are then ordered as the numbers in them.
-/

namespace FixedWidth

/-! ## One number -/

/-- The decimal digits of a number, padded to a least width. -/
def zeroPad (width n : ℕ) : List Char :=
  List.replicate (width - (Nat.toDigits 10 n).length) '0' ++ Nat.toDigits 10 n

theorem zeroPad_one {n : ℕ} (h : n < 10) : zeroPad 1 n = [n.digitChar] := by
  rw [zeroPad, Nat.toDigits_of_lt_base h]
  rfl

/-- A longer number is the digits of its tens and one digit more. -/
theorem zeroPad_succ {width : ℕ} (hw : 0 < width) (n : ℕ) :
    zeroPad (width + 1) n = zeroPad width (n / 10) ++ [(n % 10).digitChar] := by
  rcases Nat.lt_or_ge n 10 with hn | hn
  · rw [Nat.div_eq_of_lt hn, Nat.mod_eq_of_lt hn, zeroPad, zeroPad, Nat.toDigits_of_lt_base hn,
      Nat.toDigits_zero]
    obtain ⟨w, rfl⟩ := Nat.exists_eq_add_of_lt hw
    simp [List.replicate_succ']
  · rw [zeroPad, zeroPad, Nat.toDigits_of_base_le (by decide) hn, List.append_assoc]
    simp

theorem length_zeroPad {width n : ℕ} (hw : 0 < width) (hn : n < 10 ^ width) :
    (zeroPad width n).length = width := by
  have hle : (Nat.toDigits 10 n).length ≤ width :=
    (Nat.length_toDigits_le_iff (by decide) hw).mpr hn
  rw [zeroPad, List.length_append, List.length_replicate]
  omega

theorem digitChar_lt : ∀ m < 10, ∀ n < 10, m < n → m.digitChar < n.digitChar := by decide

/-! ## Order -/

/-- Of texts with beginnings of one length the beginnings decide, if they differ. -/
theorem append_lt_append {as bs : List Char} (hlen : as.length = bs.length) (h : as < bs)
    (xs ys : List Char) : as ++ xs < bs ++ ys := by
  induction as generalizing bs with
  | nil =>
    rw [List.length_eq_zero_iff.mp hlen.symm] at h
    exact absurd h (List.lt_irrefl _)
  | cons a as ih =>
    cases bs with
    | nil => cases hlen
    | cons b bs =>
      rw [List.cons_lt_cons_iff] at h
      rw [List.cons_append, List.cons_append, List.cons_lt_cons_iff]
      rcases h with h | ⟨rfl, h⟩
      · exact .inl h
      · exact .inr ⟨rfl, ih (Nat.succ.inj hlen) h⟩

theorem zeroPad_lt {width m n : ℕ} (hw : 0 < width) (hn : n < 10 ^ width) (h : m < n) :
    zeroPad width m < zeroPad width n := by
  induction width, hw using Nat.le_induction generalizing m n with
  | base =>
    rw [zeroPad_one (h.trans hn), zeroPad_one hn, List.cons_lt_cons_iff]
    exact .inl (digitChar_lt m (h.trans hn) n hn h)
  | succ width hw ih =>
    rw [zeroPad_succ hw, zeroPad_succ hw]
    have hn' : n / 10 < 10 ^ width := Nat.div_lt_of_lt_mul (by rwa [Nat.pow_succ'] at hn)
    rcases Nat.lt_or_ge (m / 10) (n / 10) with hlt | hge
    · refine append_lt_append ?_ (ih hn' hlt) _ _
      rw [length_zeroPad hw (hlt.trans hn'), length_zeroPad hw hn']
    · have heq : m / 10 = n / 10 := Nat.le_antisymm (Nat.div_le_div_right h.le) hge
      rw [heq]
      refine List.append_left_lt (List.cons_lt_cons_iff.mpr (.inl ?_))
      exact digitChar_lt _ (Nat.mod_lt _ (by decide)) _ (Nat.mod_lt _ (by decide)) (by omega)

/-! ## Texts -/

/-- A field of a text: its width, and what follows it. -/
structure Field where
  width : ℕ
  separator : Char

/-- The text of a row of numbers. -/
def print : List Field → List ℕ → List Char
  | f :: fs, n :: ns => zeroPad f.width n ++ f.separator :: print fs ns
  | _, _ => []

/-- There is a number for each field, and it fits. -/
def Fits : List Field → List ℕ → Prop
  | [], [] => True
  | f :: fs, n :: ns => 0 < f.width ∧ n < 10 ^ f.width ∧ Fits fs ns
  | _, _ => False

theorem print_lt {fs : List Field} {ms ns : List ℕ} (hm : Fits fs ms) (hn : Fits fs ns)
    (h : ms < ns) : print fs ms < print fs ns := by
  induction fs generalizing ms ns with
  | nil =>
    cases ms with
    | nil =>
      cases ns with
      | nil => exact absurd h (List.lt_irrefl _)
      | cons => exact hn.elim
    | cons => exact hm.elim
  | cons f fs ih =>
    cases ms with
    | nil => exact hm.elim
    | cons m ms =>
      cases ns with
      | nil => exact hn.elim
      | cons n ns =>
        obtain ⟨hw, hm, hms⟩ := hm
        obtain ⟨-, hn, hns⟩ := hn
        rw [print, print]
        rcases List.cons_lt_cons_iff.mp h with hlt | ⟨rfl, hlt⟩
        · refine append_lt_append ?_ (zeroPad_lt hw hn hlt) _ _
          rw [length_zeroPad hw hm, length_zeroPad hw hn]
        · exact List.append_left_lt (List.cons_lt_cons_iff.mpr (.inr ⟨rfl, ih hms hns hlt⟩))

end FixedWidth
