import GhReport.GitHub.Pagination
import Mathlib.Data.List.TakeWhile

/-! # The grammar of link fields

A field is interpreted exactly when it is of the grammar below, and its next
targets are those of the elements that the grammar finds in it.
-/

namespace GhReport.GitHub

open Domain

/-! ## Grammar -/

def Blanks (text : List Char) : Prop := ∀ c ∈ text, isBlank c = true

/-- The inside of a quoted string; a backslash escapes the character after it. -/
inductive QuotedBody : List Char → Prop where
  | nil : QuotedBody []
  | escape (c : Char) {body : List Char} (h : QuotedBody body) : QuotedBody ('\\' :: c :: body)
  | char {c : Char} {body : List Char} (hescape : c ≠ '\\') (hquote : c ≠ '"')
      (h : QuotedBody body) : QuotedBody (c :: body)

structure Parameter where
  name : List Char
  value : List Char

/-- What stands for a value: a token, or a quoted string. -/
inductive ValueText : List Char → List Char → Prop where
  | token {value : List Char} (h : isToken value = true) : ValueText value value
  | quoted {body : List Char} (h : QuotedBody body) : ValueText ('"' :: (body ++ ['"'])) body

inductive ParameterText : List Char → Parameter → Prop where
  | intro {name before after text value : List Char} (hname : isToken name = true)
      (hbefore : Blanks before) (hafter : Blanks after) (hvalue : ValueText text value) :
      ParameterText (name ++ before ++ '=' :: (after ++ text)) ⟨name, value⟩

/-- Parameters with a semicolon before each. -/
inductive ParametersText : List Char → List Parameter → Prop where
  | nil : ParametersText [] []
  | cons {before text after rest : List Char} {p : Parameter} {ps : List Parameter}
      (hbefore : Blanks before) (h : ParameterText text p) (hafter : Blanks after)
      (hrest : ParametersText rest ps) :
      ParametersText (';' :: (before ++ (text ++ after)) ++ rest) (p :: ps)

def Parameter.isRel (p : Parameter) : Bool := eqIgnoreAsciiCase p.name "rel".toList

/-- The words of a value are there, and tokens. -/
def RelationList (value : List Char) : Prop :=
  splitBlanks value ≠ [] ∧ ∀ word ∈ splitBlanks value, isToken word = true

structure Element where
  target : List Char
  parameters : List Parameter

inductive ElementText : List Char → Element → Prop where
  | intro {target blanks text : List Char} {ps : List Parameter} (htarget : '>' ∉ target)
      (hblanks : Blanks blanks) (hps : ParametersText text ps)
      (honce : (ps.filter Parameter.isRel).length ≤ 1)
      (hrel : ∀ p ∈ ps, p.isRel = true → RelationList p.value) :
      ElementText ('<' :: (target ++ '>' :: (blanks ++ text))) ⟨target, ps⟩

/-- The relation types of the element hold `next`. -/
def Element.isNext (e : Element) : Bool :=
  e.parameters.any fun p => p.isRel &&
    (splitBlanks p.value).any fun word => eqIgnoreAsciiCase word "next".toList

/-- What stands between two commas: blanks, with or without an element. -/
inductive SlotText : List Char → Option Element → Prop where
  | empty {text : List Char} (h : Blanks text) : SlotText text none
  | element {before text : List Char} {e : Element} (hbefore : Blanks before)
      (h : ElementText text e) : SlotText (before ++ text) (some e)

inductive FieldText : List Char → List Element → Prop where
  | last {text : List Char} {slot : Option Element} (h : SlotText text slot) :
      FieldText text slot.toList
  | comma {text rest : List Char} {slot : Option Element} {es : List Element}
      (h : SlotText text slot) (hrest : FieldText rest es) :
      FieldText (text ++ ',' :: rest) (slot.toList ++ es)

def nextTargets (es : List Element) : List (List Char) :=
  (es.filter Element.isNext).map Element.target

/-! ## Blanks -/

theorem dropWhile_isBlank {before : List Char} (h : Blanks before) {text : List Char}
    (hhead : ∀ c, text.head? = some c → isBlank c = false) :
    (before ++ text).dropWhile isBlank = text := by
  rw [List.dropWhile_append_of_pos h]
  cases text with
  | nil => rfl
  | cons c text => rw [List.dropWhile_cons_of_neg (by rw [hhead c rfl]; exact Bool.false_ne_true)]

theorem exists_blanks (text : List Char) :
    ∃ before, Blanks before ∧ text = before ++ text.dropWhile isBlank :=
  ⟨text.takeWhile isBlank, fun _ hc => List.mem_takeWhile_imp hc,
    (List.takeWhile_append_dropWhile ..).symm⟩

theorem trimEndBlanks_append {text after : List Char} (hafter : Blanks after)
    (hlast : ∀ c, text.getLast? = some c → isBlank c = false) :
    trimEndBlanks (text ++ after) = text := by
  unfold trimEndBlanks
  rw [List.reverse_append, dropWhile_isBlank, List.reverse_reverse]
  · exact fun c hc => hafter c (List.mem_reverse.mp hc)
  · intro c hc
    rw [List.head?_reverse] at hc
    exact hlast c hc

theorem exists_trimEndBlanks (text : List Char) :
    ∃ after, Blanks after ∧ text = trimEndBlanks text ++ after := by
  obtain ⟨before, hbefore, h⟩ := exists_blanks text.reverse
  refine ⟨before.reverse, fun c hc => hbefore c (List.mem_reverse.mp hc), ?_⟩
  unfold trimEndBlanks
  rw [← List.reverse_append, ← h, List.reverse_reverse]

/-! ## Values -/

theorem scanQuoted_append {body : List Char} (h : QuotedBody body) (rest : List Char) :
    scanQuoted (body ++ '"' :: rest) = some (body ++ ['"'], rest) := by
  induction h with
  | nil => rfl
  | escape c h ih =>
    rw [List.cons_append, List.cons_append, scanQuoted, ih]
    rfl
  | char hescape hquote h ih =>
    rw [List.cons_append, scanQuoted, ih]
    · rfl
    · exact fun _ _ hc _ => hescape hc
    · exact hquote

theorem scanQuoted_cases {text read rest : List Char} (h : scanQuoted text = some (read, rest)) :
    ∃ body, QuotedBody body ∧ read = body ++ ['"'] ∧ text = body ++ '"' :: rest := by
  induction text using scanQuoted.induct generalizing read with
  | case1 => cases h
  | case2 escaped tail ih =>
    simp only [scanQuoted, Option.map_eq_some_iff, Prod.mk.injEq] at h
    obtain ⟨p, hp, rfl, rfl⟩ := h
    obtain ⟨body, hbody, hread, rfl⟩ := ih hp
    exact ⟨'\\' :: escaped :: body, .escape escaped hbody, by rw [hread]; rfl, rfl⟩
  | case3 tail =>
    cases h
    exact ⟨[], .nil, rfl, rfl⟩
  | case4 c tail hescape hquote ih =>
    rw [scanQuoted] at h
    · simp only [Option.map_eq_some_iff, Prod.mk.injEq] at h
      obtain ⟨p, hp, rfl, rfl⟩ := h
      obtain ⟨body, hbody, hread, rfl⟩ := ih hp
      refine ⟨c :: body, .char ?_ hquote hbody, by rw [hread]; rfl, rfl⟩
      rintro rfl
      cases body with
      | nil => exact hescape _ _ rfl rfl
      | cons d body => exact hescape _ _ rfl rfl
    · exact hescape
    · exact hquote

theorem not_isToken_cons {c : Char} (hc : isToken [c] = false) (text : List Char) :
    isToken (c :: text) = false := by
  simp only [isToken, List.isEmpty_cons, Bool.not_false, List.all_cons, List.all_nil,
    Bool.and_true, Bool.true_and] at hc ⊢
  rw [hc, Bool.false_and]

theorem parameterValue_eq_some_iff (text value : List Char) :
    parameterValue text = some value ↔ ValueText text value := by
  unfold parameterValue
  split
  · next rest =>
    constructor
    · intro h
      cases hscan : scanQuoted rest with
      | none =>
        rw [hscan] at h
        cases h
      | some p =>
        obtain ⟨read, tail⟩ := p
        rw [hscan] at h
        cases tail with
        | cons c tail => cases h
        | nil =>
          obtain ⟨body, hbody, rfl, rfl⟩ := scanQuoted_cases hscan
          simp only [List.dropLast_concat, Option.some.injEq] at h
          exact h ▸ .quoted hbody
    · intro h
      cases h with
      | token htoken =>
        rw [not_isToken_cons (by decide)] at htoken
        cases htoken
      | quoted hbody =>
        rw [scanQuoted_append hbody]
        simp
  · next hquote =>
    constructor
    · intro h
      split at h
      · next htoken =>
        cases h
        exact .token htoken
      · cases h
    · intro h
      cases h with
      | token htoken => exact if_pos htoken
      | quoted hbody => exact absurd rfl (hquote _)

/-! ## Parameters -/

theorem isToken_iff {text : List Char} : isToken text = true ↔
    text ≠ [] ∧ ∀ c ∈ text, isToken [c] = true := by
  simp [isToken]

theorem isBlank_of_isToken {c : Char} (h : isToken [c] = true) : isBlank c = false := by
  cases hblank : isBlank c with
  | false => rfl
  | true =>
    simp only [isBlank, Bool.or_eq_true, beq_iff_eq] at hblank
    rcases hblank with rfl | rfl <;> exact absurd h (by decide)

theorem splitOnce_append {sep : Char} {before : List Char} (h : sep ∉ before) (after : List Char) :
    splitOnce sep (before ++ sep :: after) = some (before, after) := by
  induction before with
  | nil => simp [splitOnce]
  | cons c before ih =>
    have hne : c ≠ sep := fun hc => h (hc ▸ List.mem_cons_self ..)
    rw [List.cons_append, splitOnce, if_neg hne, ih (fun hmem => h (List.mem_cons_of_mem _ hmem))]
    rfl

theorem splitOnce_cases {sep : Char} {text before after : List Char}
    (h : splitOnce sep text = some (before, after)) :
    sep ∉ before ∧ text = before ++ sep :: after := by
  induction text generalizing before with
  | nil => cases h
  | cons c text ih =>
    rw [splitOnce] at h
    split at h
    · next hc =>
      cases h
      exact ⟨List.not_mem_nil, by rw [hc]; rfl⟩
    · next hc =>
      simp only [Option.map_eq_some_iff, Prod.mk.injEq] at h
      obtain ⟨p, hp, rfl, rfl⟩ := h
      obtain ⟨hnot, rfl⟩ := ih hp
      refine ⟨fun hmem => ?_, rfl⟩
      rcases List.mem_cons.mp hmem with rfl | hmem
      · exact hc rfl
      · exact hnot hmem

/-- The name and the value of a parameter. -/
def parseParameter (param : List Char) : Option Parameter :=
  (splitOnce '=' param).bind fun p =>
    if isToken (trimEndBlanks p.1) then
      (parameterValue (p.2.dropWhile isBlank)).map fun value => ⟨trimEndBlanks p.1, value⟩
    else none

/-- The code reads a parameter, and then decides on its relation types. -/
theorem parameterRelations_eq (relations : Option (List (List Char))) (param : List Char) :
    parameterRelations relations param = (parseParameter param).bind fun p =>
      if p.isRel then if relations.isSome then none else (relationTypes p.value).map some
      else some relations := by
  unfold parameterRelations parseParameter
  cases splitOnce '=' param with
  | none => rfl
  | some p =>
    obtain ⟨name, value⟩ := p
    simp only [Option.bind_eq_bind, Option.bind_some]
    cases isToken (trimEndBlanks name) with
    | false => rfl
    | true =>
      simp only [Bool.not_true, Bool.false_eq_true, if_false, if_true]
      cases parameterValue (value.dropWhile isBlank) with
      | none => rfl
      | some value => rfl

theorem ValueText.head_not_blank {text value : List Char} (h : ValueText text value) (c : Char)
    (hc : text.head? = some c) : isBlank c = false := by
  cases h with
  | token htoken => exact isBlank_of_isToken ((isToken_iff.mp htoken).2 c (List.mem_of_head? hc))
  | quoted hbody =>
    cases hc
    decide

theorem ValueText.last_not_blank {text value : List Char} (h : ValueText text value) (c : Char)
    (hc : text.getLast? = some c) : isBlank c = false := by
  cases h with
  | token htoken =>
    exact isBlank_of_isToken ((isToken_iff.mp htoken).2 c (List.mem_of_getLast? hc))
  | quoted hbody =>
    rw [← List.cons_append, List.getLast?_concat] at hc
    cases hc
    decide

theorem parseParameter_eq_some_iff (param : List Char) (p : Parameter) :
    parseParameter param = some p ↔ ParameterText param p := by
  constructor
  · intro h
    obtain ⟨⟨name, rest⟩, hsplit, hparse⟩ := Option.bind_eq_some_iff.mp h
    obtain ⟨-, rfl⟩ := splitOnce_cases hsplit
    split at hparse
    · next htoken =>
      obtain ⟨value, hvalue, rfl⟩ := Option.map_eq_some_iff.mp hparse
      obtain ⟨before, hbefore, hname⟩ := exists_trimEndBlanks name
      obtain ⟨after, hafter, hrest⟩ := exists_blanks rest
      rw [parameterValue_eq_some_iff] at hvalue
      have htext := ParameterText.intro htoken hbefore hafter hvalue
      rwa [← hname, ← hrest] at htext
    · cases hparse
  · rintro ⟨hname, hbefore, hafter, hvalue⟩
    next name before after text value =>
    have hnameLast : ∀ c, name.getLast? = some c → isBlank c = false := fun c hc =>
      isBlank_of_isToken ((isToken_iff.mp hname).2 c (List.mem_of_getLast? hc))
    have hequals : '=' ∉ name ++ before := by
      intro hmem
      rcases List.mem_append.mp hmem with hmem | hmem
      · exact absurd ((isToken_iff.mp hname).2 _ hmem) (by decide)
      · exact absurd (hbefore _ hmem) (by decide)
    rw [parseParameter, splitOnce_append hequals]
    simp only [Option.bind_some, trimEndBlanks_append hbefore hnameLast, hname, if_true,
      dropWhile_isBlank hafter hvalue.head_not_blank, (parameterValue_eq_some_iff ..).mpr hvalue,
      Option.map_some]

/-! ## Relations -/

theorem relationTypes_eq_some_iff (value : List Char) (types : List (List Char)) :
    relationTypes value = some types ↔ RelationList value ∧ types = splitBlanks value := by
  unfold relationTypes RelationList
  dsimp only
  split
  · next h =>
    simp only [Bool.or_eq_true, List.isEmpty_iff, Bool.not_eq_true', List.all_eq_false] at h
    constructor
    · nofun
    · rintro ⟨⟨hne, hall⟩, -⟩
      rcases h with h | ⟨word, hword, hnot⟩
      · exact absurd h hne
      · exact absurd (hall word hword) hnot
  · next h =>
    simp only [Bool.or_eq_true, List.isEmpty_iff, Bool.not_eq_true', not_or, Bool.not_eq_false,
      List.all_eq_true] at h
    constructor
    · rintro ⟨⟩
      exact ⟨h, rfl⟩
    · rintro ⟨-, rfl⟩
      rfl

/-- The parameters are read one after another; a second `rel` is refused. -/
theorem foldlM_parameterRelations {texts : List (List Char)} {ps : List Parameter}
    (h : List.Forall₂ ParameterText texts ps) (relations result : Option (List (List Char))) :
    texts.foldlM parameterRelations relations = some result ↔
      (relations.toList.length + (ps.filter Parameter.isRel).length ≤ 1 ∧
        ∀ p ∈ ps, p.isRel = true → RelationList p.value) ∧
      result =
        relations.or ((ps.filter Parameter.isRel).head?.map fun p => splitBlanks p.value) := by
  induction h generalizing relations with
  | nil =>
    rw [List.foldlM_nil, Option.pure_def, Option.some.injEq]
    constructor
    · rintro rfl
      refine ⟨⟨?_, nofun⟩, (Option.or_none).symm⟩
      cases relations <;> simp
    · rintro ⟨-, rfl⟩
      exact (Option.or_none).symm
  | cons hp hps ih =>
    rw [List.foldlM_cons, parameterRelations_eq, (parseParameter_eq_some_iff ..).mpr hp]
    next text p texts ps =>
    rw [Option.bind_some]
    by_cases hrel : p.isRel = true
    · rw [if_pos hrel, List.filter_cons_of_pos hrel]
      cases relations with
      | some types =>
        simp only [Option.isSome_some, if_true, Option.bind_eq_bind, Option.bind_none,
          reduceCtorEq, Option.toList_some, List.length_cons, List.length_nil, false_iff]
        rintro ⟨⟨hle, -⟩, -⟩
        omega
      | none =>
        rw [Option.isSome_none, if_neg Bool.false_ne_true]
        by_cases hlist : RelationList p.value
        · rw [(relationTypes_eq_some_iff ..).mpr ⟨hlist, rfl⟩]
          have hnone : 1 + (ps.filter Parameter.isRel).length ≤ 1 ↔
              ∀ a ∈ ps, a.isRel = false := by
            have hle : 1 + (ps.filter Parameter.isRel).length ≤ 1 ↔
                (ps.filter Parameter.isRel).length = 0 := by omega
            rw [hle, List.length_eq_zero_iff, List.filter_eq_nil_iff]
            simp
          simp only [Option.map_some, Option.bind_eq_bind, Option.bind_some, ih]
          simp [hlist, hnone]
        · have hnone : relationTypes p.value = none := by
            rw [Option.eq_none_iff_forall_ne_some]
            intro types htypes
            exact hlist ((relationTypes_eq_some_iff ..).mp htypes).1
          rw [hnone]
          simp [hrel, hlist]
    · rw [if_neg hrel, List.filter_cons_of_neg hrel]
      simp only [Option.bind_eq_bind, Option.bind_some, ih]
      simp [hrel]

theorem any_filter_head? {ps : List Parameter} (h : (ps.filter Parameter.isRel).length ≤ 1)
    (f : Parameter → Bool) :
    ((ps.filter Parameter.isRel).head?.any f) = ps.any fun p => p.isRel && f p := by
  rw [← List.any_filter]
  match hfilter : ps.filter Parameter.isRel with
  | [] => rfl
  | [p] => simp
  | p :: q :: rest =>
    rw [hfilter] at h
    exact absurd h (by simp)

/-- What the parameters of an element are read as. -/
theorem parametersNameNext_eq_some_iff {texts : List (List Char)} {ps : List Parameter}
    (h : List.Forall₂ ParameterText texts ps) (target : List Char) (isNext : Bool) :
    parametersNameNext texts = some isNext ↔
      ((ps.filter Parameter.isRel).length ≤ 1 ∧
        ∀ p ∈ ps, p.isRel = true → RelationList p.value) ∧
      isNext = (Element.mk target ps).isNext := by
  have hfold := foldlM_parameterRelations h none
  simp only [Option.toList_none, List.length_nil, Nat.zero_add, Option.none_or] at hfold
  unfold parametersNameNext
  constructor
  · intro hnext
    obtain ⟨relations, hrelations, hnext⟩ := Option.bind_eq_some_iff.mp hnext
    obtain ⟨hwell, rfl⟩ := (hfold _).mp hrelations
    refine ⟨hwell, ?_⟩
    rw [Option.any_map] at hnext
    cases hnext
    exact any_filter_head? hwell.1 _
  · rintro ⟨hwell, rfl⟩
    rw [(hfold _).mpr ⟨hwell, rfl⟩, Option.bind_eq_bind, Option.bind_some, Option.any_map]
    exact congrArg some (any_filter_head? hwell.1 _)

theorem forall₂_of_parametersNameNext {texts : List (List Char)} {isNext : Bool}
    (h : parametersNameNext texts = some isNext) : ∃ ps, List.Forall₂ ParameterText texts ps := by
  unfold parametersNameNext at h
  obtain ⟨result, hfold, -⟩ := Option.bind_eq_some_iff.mp h
  clear h
  generalize (none : Option (List (List Char))) = relations at hfold
  induction texts generalizing relations with
  | nil => exact ⟨[], .nil⟩
  | cons text texts ih =>
    rw [List.foldlM_cons] at hfold
    obtain ⟨next, hstep, hrest⟩ := Option.bind_eq_some_iff.mp hfold
    rw [parameterRelations_eq] at hstep
    obtain ⟨p, hp, -⟩ := Option.bind_eq_some_iff.mp hstep
    obtain ⟨ps, hps⟩ := ih next hrest
    exact ⟨p :: ps, .cons ((parseParameter_eq_some_iff ..).mp hp) hps⟩

end GhReport.GitHub
