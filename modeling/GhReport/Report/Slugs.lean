import GhReport.Domain.Types
import GhReport.Library.Fresh
import GhReport.Library.KeyMap
import Mathlib.Data.List.Induction

/-! # Slugs of owners

A name becomes a slug of letters, digits, underscores and single dashes. Names
in a list get distinct slugs: the first that wants a slug has it, a later one
gets a number, and so does a name of which nothing remains.
-/

namespace GhReport.Report

open Domain

/-! ## One name -/

/-- The slug so far, and whether a dash may not follow. -/
structure SlugText where
  slug : List Char
  prevDash : Bool

def SlugText.push (t : SlugText) (c : Char) : SlugText :=
  if c.isAlphanum || c = '_' then ⟨t.slug ++ [c], false⟩
  else if !t.prevDash then ⟨t.slug ++ ['-'], true⟩
  else t

def generateSlug (owner : String) : String :=
  let stripped :=
    match owner.toList with
    | '@' :: stripped => stripped
    | chars => chars
  let slug := (stripped.foldl SlugText.push ⟨[], true⟩).slug
  String.ofList (if slug.getLast? = some '-' then slug.dropLast else slug)

/-- The decimal digits of a text, in order. -/
def digits (text : String) : List Char := text.toList.filter Char.isDigit

/-- The slug of a name has the digits of the name. -/
theorem digits_generateSlug (owner : String) : digits (generateSlug owner) = digits owner := by
  have hpush : ∀ (t : SlugText) (c : Char),
      (t.push c).slug.filter Char.isDigit =
        t.slug.filter Char.isDigit ++ [c].filter Char.isDigit := by
    intro t c
    unfold SlugText.push
    split
    · exact List.filter_append ..
    · next hkeep =>
      have hdigit : c.isDigit = false := by
        by_contra hc
        simp [Char.isAlphanum, hc] at hkeep
      split <;> simp [hdigit]
  have hfold : ∀ chars : List Char,
      (chars.foldl SlugText.push ⟨[], true⟩).slug.filter Char.isDigit =
        chars.filter Char.isDigit := by
    intro chars
    induction chars using List.reverseRecOn with
    | nil => rfl
    | append_singleton chars c ih => rw [List.foldl_concat, hpush, ih, List.filter_append]
  have hdash : ∀ slug : List Char,
      (if slug.getLast? = some '-' then slug.dropLast else slug).filter Char.isDigit =
        slug.filter Char.isDigit := by
    intro slug
    split
    · next hlast =>
      obtain ⟨rest, rfl⟩ := List.getLast?_eq_some_iff.mp hlast
      simp
    · rfl
  unfold digits generateSlug
  rw [String.toList_ofList, hdash, hfold]
  split
  · next stripped hat => rw [hat]; rfl
  · rfl

/-! ## A list of names -/

/-- A slug with a number behind it. -/
def suffixed (base : String) (suffix : ℕ) : String := base ++ "-" ++ toString suffix

theorem suffixed_injective (base : String) :
    Function.Injective fun attempt => suffixed base (attempt + 2) := by
  intro i j h
  have hnumber := congrArg String.toList ((String.append_right_inj _).mp h)
  simp only [Nat.toString_eq_ofList_toDigits, String.toList_ofList] at hnumber
  have hvalue := congrArg (fun ds => Nat.ofDigitChars 10 ds 0) hnumber
  simpa using hvalue

/-- The loop over the names: their slugs, the slugs in use, and the names without one so far. -/
structure SlugTable where
  result : KeyMap String := ∅
  usedSlugs : List String := []
  fallbackCounter : ℕ := 0

namespace SlugTable

variable (t : SlugTable) (owner : String)

/-- The slug that an owner asks for, and the count of those that have none of their own. -/
def wanted : String × ℕ :=
  let base := generateSlug owner
  if base.isEmpty then ("owner-" ++ toString (t.fallbackCounter + 1), t.fallbackCounter + 1)
  else (base, t.fallbackCounter)

def finalSlug : String :=
  let base := (t.wanted owner).1
  if base ∈ t.usedSlugs then Fresh.firstFree (suffixed_injective base) t.usedSlugs else base

def add : SlugTable where
  result := t.result.insert owner (t.finalSlug owner)
  usedSlugs := t.usedSlugs ++ [t.finalSlug owner]
  fallbackCounter := (t.wanted owner).2

end SlugTable

/-- The table after the names. -/
def slugTable (owners : List String) : SlugTable := owners.foldl SlugTable.add {}

/-- The slug of each owner. -/
def generateUniqueSlugs (owners : List String) : KeyMap String := (slugTable owners).result

namespace SlugTable

variable {t : SlugTable} {owner : String}

theorem finalSlug_notMem (t : SlugTable) (owner : String) : t.finalSlug owner ∉ t.usedSlugs := by
  unfold finalSlug
  dsimp only
  split
  · exact Fresh.firstFree_notMem _ _
  · next h => exact h

/-- An owner that has the slug of its own name found that slug unused. -/
structure Plain (t : SlugTable) (owner : String) : Prop where
  nonempty : generateSlug owner ≠ ""
  unused : generateSlug owner ∉ t.usedSlugs

theorem Plain.finalSlug (h : t.Plain owner) : t.finalSlug owner = generateSlug owner := by
  have hwanted : (t.wanted owner).1 = generateSlug owner := by
    unfold wanted
    dsimp only
    rw [if_neg (by simpa using h.nonempty)]
  unfold SlugTable.finalSlug
  dsimp only
  rw [hwanted, if_neg h.unused]

theorem digits_append (a b : String) : digits (a ++ b) = digits a ++ digits b := by
  unfold digits
  rw [String.toList_append, List.filter_append]

theorem digits_toString_ne_nil (n : ℕ) : digits (toString n) ≠ [] := by
  have hkept : digits (toString n) = Nat.toDigits 10 n := by
    rw [digits, Nat.toString_eq_ofList_toDigits, String.toList_ofList, List.filter_eq_self]
    intro c hc
    exact Nat.isDigit_of_mem_toDigits (by decide) (by decide) hc
  rw [hkept]
  exact List.ne_nil_of_length_pos Nat.length_toDigits_pos

theorem digits_suffixed_ne (base : String) (suffix : ℕ) :
    digits (suffixed base suffix) ≠ digits base := by
  rw [suffixed, digits_append, digits_append, List.append_assoc, ne_eq,
    List.append_right_eq_self, List.append_eq_nil_iff, not_and]
  exact fun _ => digits_toString_ne_nil suffix

/-- Every other slug has a digit that the name does not have. -/
theorem digits_finalSlug (h : ¬ t.Plain owner) : digits (t.finalSlug owner) ≠ digits owner := by
  rw [← digits_generateSlug owner]
  by_cases hempty : generateSlug owner = ""
  · rw [hempty]
    change digits (t.finalSlug owner) ≠ []
    have hwanted : (t.wanted owner).1 = "owner-" ++ toString (t.fallbackCounter + 1) := by
      unfold wanted
      dsimp only
      rw [if_pos (by simpa using hempty)]
    have hdigits : digits (t.wanted owner).1 ≠ [] := by
      rw [hwanted, digits_append]
      exact List.append_ne_nil_of_right_ne_nil _ (digits_toString_ne_nil _)
    unfold finalSlug
    dsimp only
    split
    · obtain ⟨n, hn, -⟩ :=
        Fresh.exists_firstFree (suffixed_injective (t.wanted owner).1) t.usedSlugs
      rw [hn, suffixed, digits_append, digits_append]
      exact List.append_ne_nil_of_left_ne_nil (List.append_ne_nil_of_left_ne_nil hdigits _) _
    · exact hdigits
  · have hwanted : (t.wanted owner).1 = generateSlug owner := by
      unfold wanted
      dsimp only
      rw [if_neg (by simpa using hempty)]
    have hused : generateSlug owner ∈ t.usedSlugs := by
      by_contra hunused
      exact h ⟨hempty, hunused⟩
    obtain ⟨n, hn, -⟩ := Fresh.exists_firstFree (suffixed_injective (t.wanted owner).1) t.usedSlugs
    rw [finalSlug, if_pos (by rwa [hwanted]), hn, hwanted]
    exact digits_suffixed_ne _ _

/-- An owner gets a given slug with the digits of its name only if that is the slug of its name. -/
theorem finalSlug_eq_iff {slug : String} (hslug : digits slug = digits owner) :
    t.finalSlug owner = slug ↔ t.Plain owner ∧ generateSlug owner = slug := by
  constructor
  · intro hfinal
    have hplain : t.Plain owner := by
      by_contra h
      rw [← hfinal] at hslug
      exact digits_finalSlug h hslug
    rw [hplain.finalSlug] at hfinal
    exact ⟨hplain, hfinal⟩
  · intro h
    rw [h.1.finalSlug]
    exact h.2

end SlugTable

/-! ## The whole list -/

/-- Distinct owners find their slugs in the table, and the slugs are distinct. -/
structure Assigned (owners : List String) (t : SlugTable) : Prop where
  found : owners.map (fun owner => t.result[owner]?) = t.usedSlugs.map some
  nodup : t.usedSlugs.Nodup

theorem assigned_slugTable {owners : List String} (h : owners.Nodup) :
    Assigned owners (slugTable owners) := by
  induction owners using List.reverseRecOn with
  | nil => exact ⟨rfl, List.nodup_nil⟩
  | append_singleton owners owner ih =>
    obtain ⟨howners, -, hdisjoint⟩ := List.nodup_append.mp h
    obtain ⟨hfound, hnodup⟩ := ih howners
    rw [slugTable, List.foldl_concat, ← slugTable]
    have hother : ∀ other ∈ owners, owner ≠ other := by
      intro other hmem he
      exact hdisjoint other hmem owner (List.mem_singleton_self _) he.symm
    constructor
    · simp only [SlugTable.add, List.map_append, List.map_cons, List.map_nil,
        KeyMap.getElem?_insert_same]
      rw [← hfound]
      congr 1
      apply List.map_congr_left
      intro other hmem
      exact KeyMap.getElem?_insert_ne _ (hother other hmem) _
    · exact List.nodup_append.mpr ⟨hnodup, List.nodup_singleton _, by
        rintro a ha b hb rfl
        rw [List.mem_singleton.mp hb] at ha
        exact SlugTable.finalSlug_notMem _ _ ha⟩

/-- The slug of an owner is decided by the owners before it. -/
theorem generateUniqueSlugs_append {before : List String} {owner : String} {after : List String}
    (h : owner ∉ after) :
    (generateUniqueSlugs (before ++ owner :: after))[owner]? =
      some ((slugTable before).finalSlug owner) := by
  induction after using List.reverseRecOn with
  | nil =>
    rw [generateUniqueSlugs, slugTable, List.foldl_concat]
    exact KeyMap.getElem?_insert_same _ _ _
  | append_singleton after last ih =>
    rw [List.mem_append, List.mem_singleton, not_or] at h
    rw [generateUniqueSlugs, ← List.cons_append, ← List.append_assoc, slugTable, List.foldl_concat]
    exact (KeyMap.getElem?_insert_ne _ (Ne.symm h.2) _).trans (ih h.1)

end GhReport.Report
