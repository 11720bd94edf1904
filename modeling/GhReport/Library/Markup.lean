import Mathlib.Data.List.Basic

/-! # Nested markup

A content model says which text and which elements may stand in each kind of
content. Markup is nested when every element that it opens is closed around
content of the kind that the element holds.
-/

namespace Markup

/-! ## Escaped text -/

def entities : List (List Char) :=
  ["&amp;".toList, "&lt;".toList, "&gt;".toList, "&quot;".toList]

/-- A character that stands for itself. -/
def Plain (c : Char) : Prop := c ≠ '<' ∧ c ≠ '>' ∧ c ≠ '&' ∧ c ≠ '"'

/-- Text that holds no markup: its special characters are entities. -/
inductive Escaped : List Char → Prop where
  | nil : Escaped []
  | plain {c : Char} {text : List Char} : Plain c → Escaped text → Escaped (c :: text)
  | entity {e text : List Char} : e ∈ entities → Escaped text → Escaped (e ++ text)

theorem Escaped.append {text text' : List Char} (h : Escaped text) (h' : Escaped text') :
    Escaped (text ++ text') := by
  induction h with
  | nil => exact h'
  | plain hc _ ih => exact .plain hc ih
  | entity he _ ih =>
    rw [List.append_assoc]
    exact .entity he ih

theorem Escaped.flatMap {f : Char → List Char} (hf : ∀ c, Escaped (f c)) (text : List Char) :
    Escaped (text.flatMap f) := by
  induction text with
  | nil => exact .nil
  | cons c text ih => exact (hf c).append ih

theorem Escaped.intercalate {sep : List Char} (hsep : Escaped sep) {texts : List (List Char)}
    (h : ∀ t ∈ texts, Escaped t) : Escaped (sep.intercalate texts) := by
  induction texts with
  | nil => exact .nil
  | cons t texts ih =>
    have ht := h t (List.mem_cons_self ..)
    have hrest := ih fun t ht => h t (List.mem_cons_of_mem _ ht)
    cases texts with
    | nil =>
      rw [List.intercalate_singleton]
      exact ht
    | cons t' texts =>
      rw [List.intercalate_cons_cons]
      exact (ht.append hsep).append hrest

theorem escaped_of_entity {e : List Char} (h : e ∈ entities) : Escaped e := by
  rw [← List.append_nil e]
  exact .entity h .nil

theorem escaped_of_plain {text : List Char} (h : ∀ c ∈ text, Plain c) : Escaped text := by
  induction text with
  | nil => exact .nil
  | cons c text ih =>
    exact .plain (h c (List.mem_cons_self ..)) (ih fun d hd => h d (List.mem_cons_of_mem _ hd))

/-! ## Elements -/

/-- What may stand in each kind of content: text, and elements by their tags and their content. -/
structure ContentModel (κ : Type*) where
  text : κ → List Char → Prop
  element : κ → List Char → List Char → κ → Prop

variable {κ : Type*} (M : ContentModel κ)

inductive Nested : κ → List Char → Prop where
  | nil {k : κ} : Nested k []
  | text {k : κ} {t : List Char} : M.text k t → Nested k t
  | element {k k' : κ} {start stop body : List Char} :
      M.element k start stop k' → Nested k' body → Nested k (start ++ (body ++ stop))
  | append {k : κ} {s t : List Char} : Nested k s → Nested k t → Nested k (s ++ t)

variable {M}

theorem Nested.flatMap {α : Type*} {k : κ} {f : α → List Char} {as : List α}
    (h : ∀ a ∈ as, Nested M k (f a)) : Nested M k (as.flatMap f) := by
  induction as with
  | nil => exact .nil
  | cons a as ih =>
    exact .append (h a (List.mem_cons_self ..)) (ih fun b hb => h b (List.mem_cons_of_mem _ hb))

end Markup
