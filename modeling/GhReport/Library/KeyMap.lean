import Mathlib.Algebra.BigOperators.Group.List.Basic
import Mathlib.Data.List.Dedup
import Mathlib.Data.List.Induction
import Std.Data.ExtTreeMap

/-! # Ordered maps with decidable keys

Lookups in ordered maps after an insertion or a removal, stated with equality
of keys instead of their comparison.
-/

namespace KeyMap

open Std

variable {K V : Type} [Ord K] [TransOrd K] [LawfulEqOrd K] [DecidableEq K]

theorem getElem?_insert (m : ExtTreeMap K V compare) (k k' : K) (v : V) :
    (m.insert k v)[k']? = if k = k' then some v else m[k']? := by
  simp only [ExtTreeMap.getElem?_insert, Std.compare_eq_iff_eq]

theorem getElem?_erase (m : ExtTreeMap K V compare) (k k' : K) :
    (m.erase k)[k']? = if k = k' then none else m[k']? := by
  simp only [ExtTreeMap.getElem?_erase, Std.compare_eq_iff_eq]

@[simp] theorem getElem?_insert_same (m : ExtTreeMap K V compare) (k : K) (v : V) :
    (m.insert k v)[k]? = some v := by
  rw [getElem?_insert, if_pos rfl]

theorem getElem?_insert_ne (m : ExtTreeMap K V compare) {k k' : K} (h : k ≠ k') (v : V) :
    (m.insert k v)[k']? = m[k']? := by
  rw [getElem?_insert, if_neg h]

theorem getElem?_erase_ne (m : ExtTreeMap K V compare) {k k' : K} (h : k ≠ k') :
    (m.erase k)[k']? = m[k']? := by
  rw [getElem?_erase, if_neg h]

omit [DecidableEq K] in
/-- Two maps with the same lookups are equal. -/
theorem ext {m m' : ExtTreeMap K V compare} (h : ∀ k : K, m[k]? = m'[k]?) : m = m' :=
  ExtTreeMap.ext_getElem? h

theorem erase_eq_self {m : ExtTreeMap K V compare} {k : K} (h : m[k]? = none) :
    m.erase k = m := by
  apply ext
  intro k'
  rw [getElem?_erase]
  split
  · next e => rw [← e, h]
  · rfl

/-- Changes of entries commute when they do at a common key. -/
theorem insert_comm {m : ExtTreeMap K V compare} {k k' : K} {f g : Option V → V}
    (h : ∀ v, f (some (g v)) = g (some (f v))) :
    (m.insert k (f m[k]?)).insert k' (g (m.insert k (f m[k]?))[k']?) =
      (m.insert k' (g m[k']?)).insert k (f (m.insert k' (g m[k']?))[k]?) := by
  apply ext
  intro j
  simp only [getElem?_insert]
  rcases eq_or_ne k k' with rfl | hk
  · simp only [if_true, h]
    split <;> rfl
  · simp only [if_neg hk, if_neg hk.symm]
    split
    · next hj => rw [if_neg (fun e => hk (e.trans hj.symm))]
    · rfl

omit [LawfulEqOrd K] [DecidableEq K] in
theorem values_eq_map_toList (m : ExtTreeMap K V compare) :
    m.values = m.toList.map Prod.snd := by
  obtain ⟨t⟩ := m
  induction t using ExtDTreeMap.inductionOn with
  | mk t =>
    change t.inner.values = (DTreeMap.Internal.Impl.Const.toList t.inner).map Prod.snd
    rw [DTreeMap.Internal.Impl.values_eq_map_snd,
      DTreeMap.Internal.Impl.Const.toList_eq_toListModel_map, List.map_map]
    rfl

omit [DecidableEq K] in
theorem nodup_toList (m : ExtTreeMap K V compare) : m.toList.Nodup :=
  ExtTreeMap.distinct_keys_toList.imp fun h e => h (by rw [e]; exact ReflCmp.compare_self)

/-! ## Conditions on all entries -/

def All (P : K → V → Prop) (m : ExtTreeMap K V compare) : Prop := ∀ k v, m[k]? = some v → P k v

def insertAll (m : ExtTreeMap K V compare) (entries : List (K × V)) : ExtTreeMap K V compare :=
  entries.foldl (fun m entry => m.insert entry.1 entry.2) m

variable {P Q : K → V → Prop} {m : ExtTreeMap K V compare}

omit [DecidableEq K] [LawfulEqOrd K] in
theorem All.empty : All P (∅ : ExtTreeMap K V compare) := by
  intro k v h
  simp at h

omit [DecidableEq K] [LawfulEqOrd K] in
theorem All.mono (h : All P m) (hPQ : ∀ k v, P k v → Q k v) : All Q m :=
  fun k v hk => hPQ k v (h k v hk)

theorem All.insert (h : All P m) {k : K} {v : V} (hv : P k v) : All P (m.insert k v) := by
  intro k' v' h'
  rw [getElem?_insert] at h'
  split at h'
  · next e =>
    cases h'
    rwa [← e]
  · exact h k' v' h'

theorem All.erase (h : All P m) (k : K) : All P (m.erase k) := by
  intro k' v' h'
  rw [getElem?_erase] at h'
  split at h'
  · cases h'
  · exact h k' v' h'

theorem All.insertAll (h : All P m) {entries : List (K × V)} (hall : ∀ e ∈ entries, P e.1 e.2) :
    All P (insertAll m entries) := by
  induction entries generalizing m with
  | nil => exact h
  | cons e entries ih =>
    exact ih (h.insert (hall e (List.mem_cons_self ..))) fun e' he' =>
      hall e' (List.mem_cons_of_mem _ he')

/-! ## Maps of the elements of a list -/

section InsertSome

variable {A : Type} (key : A → K) (f : A → Option V)

/-- Each element that has a value is inserted under its key. -/
def insertSome (m : ExtTreeMap K V compare) (l : List A) : ExtTreeMap K V compare :=
  l.foldl (fun m a => match f a with
    | some v => m.insert (key a) v
    | none => m) m

theorem getElem?_insertSome_of_notMem (m : ExtTreeMap K V compare) {l : List A} {k : K}
    (h : k ∉ l.map key) : (insertSome key f m l)[k]? = m[k]? := by
  induction l generalizing m with
  | nil => rfl
  | cons a l ih =>
    rw [List.map_cons, List.mem_cons, not_or] at h
    rw [insertSome, List.foldl_cons]
    refine (ih _ h.2).trans ?_
    split
    · exact getElem?_insert_ne m (Ne.symm h.1) _
    · rfl

/-- An element of a list without repeated keys decides the entry under its key. -/
theorem getElem?_insertSome (m : ExtTreeMap K V compare) {l : List A} (hl : (l.map key).Nodup)
    {a : A} (ha : a ∈ l) : (insertSome key f m l)[key a]? = (f a).or m[key a]? := by
  induction l generalizing m with
  | nil => cases ha
  | cons b l ih =>
    obtain ⟨hb, hl⟩ := List.nodup_cons.mp hl
    rw [insertSome, List.foldl_cons]
    rcases List.mem_cons.mp ha with rfl | ha
    · refine (getElem?_insertSome_of_notMem key f _ hb).trans ?_
      split
      · next v hv => rw [getElem?_insert_same, hv, Option.some_or]
      · next hv => rw [hv, Option.none_or]
    · refine (ih _ hl ha).trans ?_
      have hne : key b ≠ key a := fun e => hb (e ▸ List.mem_map_of_mem ha)
      split
      · rw [getElem?_insert_ne m hne]
      · rfl

end InsertSome

/-! ## Last writers -/

omit [DecidableEq K] in
/-- A map lists one entry for each key it has, in any listing that covers its keys. -/
theorem toList_perm_of_covers (m : ExtTreeMap K V compare) {ks : List K} (hnodup : ks.Nodup)
    (hcovers : ∀ k v, m[k]? = some v → k ∈ ks) :
    m.toList.Perm (ks.filterMap fun k => m[k]?.map (Prod.mk k)) := by
  rw [List.perm_ext_iff_of_nodup (nodup_toList m)]
  · rintro ⟨k, v⟩
    rw [ExtTreeMap.mem_toList_iff_getElem?_eq_some, List.mem_filterMap]
    constructor
    · intro h
      exact ⟨k, hcovers k v h, by rw [h]; rfl⟩
    · rintro ⟨k', -, h⟩
      obtain ⟨v', hv', he⟩ := Option.map_eq_some_iff.mp h
      cases he
      exact hv'
  · refine hnodup.filterMap ?_
    intro k k' e he he'
    obtain ⟨v, -, rfl⟩ := Option.map_eq_some_iff.mp he
    obtain ⟨v', -, heq⟩ := Option.map_eq_some_iff.mp he'
    exact (congrArg Prod.fst heq).symm

section LastWriter

variable {A : Type} (key : A → K) (f : A → Option V)

/-- Each element sets the entry under its key, or clears it. -/
def writeAll (l : List A) : ExtTreeMap K V compare :=
  l.foldl (fun m a => match f a with
    | some v => m.insert (key a) v
    | none => m.erase (key a)) ∅

/-- What the last element with a key leaves under it. -/
def lastWritten (l : List A) (k : K) : Option V :=
  (l.filter fun a => key a = k).getLast?.bind f

theorem getElem?_writeAll (l : List A) (k : K) :
    (writeAll key f l)[k]? = lastWritten key f l k := by
  induction l using List.reverseRecOn with
  | nil => exact ExtTreeMap.getElem?_empty
  | append_singleton l a ih =>
    have hstep : (writeAll key f (l ++ [a]))[k]? =
        if key a = k then f a else (writeAll key f l)[k]? := by
      rw [writeAll, List.foldl_concat, ← writeAll]
      cases f a with
      | some v => exact getElem?_insert _ _ _ _
      | none => exact getElem?_erase _ _ _
    rw [hstep, lastWritten, List.filter_append]
    by_cases hk : key a = k
    · simp [hk]
    · simp [hk, ih, lastWritten]

/-- The values left are those of the last element with each key, where it set one. -/
theorem values_writeAll_perm (l : List A) :
    (writeAll key f l).values.Perm ((l.map key).dedup.filterMap (lastWritten key f l)) := by
  have hcovers : ∀ k v, (writeAll key f l)[k]? = some v → k ∈ (l.map key).dedup := by
    intro k v h
    rw [getElem?_writeAll, lastWritten] at h
    obtain ⟨a, ha, -⟩ := Option.bind_eq_some_iff.mp h
    obtain ⟨hmem, hkey⟩ := List.mem_filter.mp (List.mem_of_getLast? ha)
    rw [List.mem_dedup, List.mem_map]
    exact ⟨a, hmem, of_decide_eq_true hkey⟩
  rw [values_eq_map_toList]
  refine ((toList_perm_of_covers _ (List.nodup_dedup _) hcovers).map Prod.snd).trans ?_
  rw [List.map_filterMap]
  apply List.Perm.of_eq
  apply List.filterMap_congr
  intro k _
  rw [Option.map_map, ← getElem?_writeAll]
  exact congrFun Option.map_id _

end LastWriter

/-! ## Sums over all entries -/

section Total

variable {N : Type} [AddCommMonoid N] (f : V → N)

/-- The sum of a measure of the values. -/
def total (m : ExtTreeMap K V compare) : N := (m.toList.map fun e => f e.2).sum

omit [DecidableEq K] [LawfulEqOrd K] in
@[simp] theorem total_empty : total f (∅ : ExtTreeMap K V compare) = 0 := by
  rw [total, ExtTreeMap.toList_eq_nil_iff.mpr rfl]
  rfl

theorem toList_insert_perm (m : ExtTreeMap K V compare) {k : K} (h : m[k]? = none) (v : V) :
    (m.insert k v).toList.Perm ((k, v) :: m.toList) := by
  have hk : (k, v) ∉ m.toList := by
    rw [ExtTreeMap.mem_toList_iff_getElem?_eq_some, h]
    nofun
  rw [List.perm_ext_iff_of_nodup (nodup_toList _) (List.nodup_cons.mpr ⟨hk, nodup_toList m⟩)]
  rintro ⟨k', v'⟩
  rw [List.mem_cons, ExtTreeMap.mem_toList_iff_getElem?_eq_some,
    ExtTreeMap.mem_toList_iff_getElem?_eq_some, getElem?_insert, Prod.mk.injEq]
  split
  · next e =>
    subst e
    simp [h, eq_comm]
  · next e => simp [Ne.symm e]

/-- An insertion under a new key adds the measure of its value. -/
theorem total_insert_new {m : ExtTreeMap K V compare} {k : K} (h : m[k]? = none) (v : V) :
    total f (m.insert k v) = f v + total f m := by
  unfold total
  rw [((toList_insert_perm m h v).map _).sum_eq, List.map_cons, List.sum_cons]

theorem insert_erase (m : ExtTreeMap K V compare) (k : K) (v : V) :
    (m.erase k).insert k v = m.insert k v := by
  apply ext
  intro k'
  rw [getElem?_insert, getElem?_insert, getElem?_erase]
  split <;> rfl

/-- An insertion replaces the measure of the value that was there. -/
theorem total_insert (m : ExtTreeMap K V compare) (k : K) (v : V) :
    total f (m.insert k v) + (m[k]?).elim 0 f = f v + total f m := by
  have herase : (m.erase k)[k]? = none := by rw [getElem?_erase, if_pos rfl]
  rw [← insert_erase, total_insert_new f herase, add_assoc]
  congr 1
  cases hk : m[k]? with
  | none => rw [erase_eq_self hk, Option.elim_none, add_zero]
  | some w =>
    have hm : m = (m.erase k).insert k w := by
      rw [insert_erase]
      apply ext
      intro k'
      rw [getElem?_insert]
      split
      · next e => rw [← e, hk]
      · rfl
    conv_rhs => rw [hm, total_insert_new f herase]
    rw [Option.elim_some, add_comm]

end Total

end KeyMap
