import GhReport.GitHub.LinkGrammar

/-! # Reading link fields

The scanners stop where an element of the grammar ends, so a field is read
exactly when it is of the grammar. A response that is not is never taken for
one without a next page.
-/

namespace GhReport.GitHub

open Domain

/-! ## Scanning -/

def AtSeparator (rest : List Char) : Prop := ∀ c, rest.head? = some c → c = ';' ∨ c = ','

def AtComma (rest : List Char) : Prop := ∀ c, rest.head? = some c → c = ','

theorem AtComma.atSeparator {rest : List Char} (h : AtComma rest) : AtSeparator rest :=
  fun c hc => .inr (h c hc)

/-- What a scan of one parameter goes over: separators occur in quoted strings only. -/
inductive Span : List Char → Prop where
  | nil : Span []
  | char {c : Char} {text : List Char} (hsep : ¬ (c = ';' ∨ c = ',')) (hquote : c ≠ '"')
      (h : Span text) : Span (c :: text)
  | quoted {body text : List Char} (hbody : QuotedBody body) (h : Span text) :
      Span ('"' :: (body ++ '"' :: text))

theorem Span.append {text text' : List Char} (h : Span text) (h' : Span text') :
    Span (text ++ text') := by
  induction h with
  | nil => exact h'
  | char hsep hquote h ih => exact .char hsep hquote ih
  | quoted hbody h ih =>
    rw [List.cons_append, List.append_assoc, List.cons_append]
    exact .quoted hbody ih

theorem Span.of_forall {text : List Char}
    (h : ∀ c ∈ text, ¬ (c = ';' ∨ c = ',') ∧ c ≠ '"') : Span text := by
  induction text with
  | nil => exact .nil
  | cons c text ih =>
    obtain ⟨hc, htext⟩ := List.forall_mem_cons.mp h
    exact .char hc.1 hc.2 (ih htext)

theorem Blanks.span {text : List Char} (h : Blanks text) : Span text := by
  refine .of_forall fun c hc => ?_
  have hblank := h c hc
  simp only [isBlank, Bool.or_eq_true, beq_iff_eq] at hblank
  rcases hblank with rfl | rfl <;> decide

theorem span_of_isToken {text : List Char} (h : isToken text = true) : Span text := by
  refine .of_forall fun c hc => ?_
  have htoken := (isToken_iff.mp h).2 c hc
  refine ⟨?_, ?_⟩
  · rintro (rfl | rfl) <;> exact absurd htoken (by decide)
  · rintro rfl
    exact absurd htoken (by decide)

theorem ValueText.span {text value : List Char} (h : ValueText text value) : Span text := by
  cases h with
  | token htoken => exact span_of_isToken htoken
  | quoted hbody => exact .quoted hbody .nil

theorem ParameterText.span {text : List Char} {p : Parameter} (h : ParameterText text p) :
    Span text := by
  obtain ⟨hname, hbefore, hafter, hvalue⟩ := h
  exact ((span_of_isToken hname).append hbefore.span).append
    (.char (by decide) (by decide) (hafter.span.append hvalue.span))

theorem ParameterText.last_not_blank {text : List Char} {p : Parameter}
    (h : ParameterText text p) (c : Char) (hc : text.getLast? = some c) : isBlank c = false := by
  obtain ⟨hname, hbefore, hafter, hvalue⟩ := h
  next name before after text value =>
  have hne : text ≠ [] := by
    cases hvalue with
    | token htoken => exact (isToken_iff.mp htoken).1
    | quoted hbody => exact List.cons_ne_nil _ _
  refine hvalue.last_not_blank c ?_
  rw [← hc, ← List.cons_append, ← List.append_assoc, List.getLast?_append_of_ne_nil _ hne]

theorem ParameterText.head_not_blank {text : List Char} {p : Parameter}
    (h : ParameterText text p) (c : Char) (hc : text.head? = some c) : isBlank c = false := by
  obtain ⟨hname, hbefore, hafter, hvalue⟩ := h
  next name before after text value =>
  have htoken := isToken_iff.mp hname
  rw [List.append_assoc, List.head?_append_of_ne_nil _ htoken.1] at hc
  exact isBlank_of_isToken (htoken.2 c (List.mem_of_head? hc))

theorem scanOneParameterLoop_quote {text read rest : List Char}
    (h : scanQuoted text = some (read, rest)) (acc : List Char) :
    scanOneParameterLoop.step (acc, '"' :: text) = .inr (acc ++ '"' :: read, rest) := by
  simp only [scanOneParameterLoop]
  rw [if_neg (by decide), if_true]
  split
  · next hnone =>
    rw [h] at hnone
    cases hnone
  · next hsome =>
    rw [h] at hsome
    cases hsome
    rfl

theorem scanOneParameterLoop_span {read : List Char} (h : Span read) {rest : List Char}
    (hrest : AtSeparator rest) (acc : List Char) :
    scanOneParameterLoop.exec (acc, read ++ rest) = some (acc ++ read, rest) := by
  induction h generalizing acc with
  | nil =>
    rw [List.append_nil, List.nil_append]
    refine Loop.exec_inl ?_
    cases rest with
    | nil => rfl
    | cons c rest => exact if_pos (hrest c rfl)
  | char hsep hquote h ih =>
    next c text =>
    have hstep : scanOneParameterLoop.step (acc, c :: (text ++ rest)) =
        .inr (acc ++ [c], text ++ rest) := (if_neg hsep).trans (if_neg hquote)
    rw [List.cons_append, Loop.exec_inr hstep, ih, List.append_assoc, List.singleton_append]
  | quoted hbody h ih =>
    next body text =>
    have hstep := scanOneParameterLoop_quote (scanQuoted_append hbody (text ++ rest)) acc
    rw [List.cons_append, List.append_assoc, List.cons_append, Loop.exec_inr hstep, ih,
      List.append_assoc]
    simp

theorem scanOneParameterLoop_cases (s : List Char × List Char) :
    ∀ raw rest, scanOneParameterLoop.exec s = some (raw, rest) →
      AtSeparator rest ∧ ∃ read, raw = s.1 ++ read ∧ s.2 = read ++ rest := by
  apply scanOneParameterLoop.exec_induction (P := fun s w => ∀ raw rest, w = some (raw, rest) →
    AtSeparator rest ∧ ∃ read, raw = s.1 ++ read ∧ s.2 = read ++ rest)
  · rintro ⟨acc, text⟩ w hs raw rest rfl
    cases text with
    | nil =>
      cases hs
      exact ⟨nofun, [], (List.append_nil _).symm, rfl⟩
    | cons c tail =>
      simp only [scanOneParameterLoop] at hs
      split at hs
      · next hsep =>
        cases hs
        refine ⟨?_, [], (List.append_nil _).symm, rfl⟩
        rintro _ ⟨⟩
        exact hsep
      · split at hs
        · split at hs <;> cases hs
        · cases hs
  · rintro ⟨acc, text⟩ s' hs ih raw rest hexec
    obtain ⟨hsep, read, rfl, hread⟩ := ih raw rest hexec
    refine ⟨hsep, ?_⟩
    cases text with
    | nil => cases hs
    | cons c tail =>
      simp only [scanOneParameterLoop] at hs
      split at hs
      · cases hs
      · split at hs
        · next hquote =>
          split at hs
          · cases hs
          · next body tail' hscan =>
            cases hs
            obtain ⟨inside, -, rfl, rfl⟩ := scanQuoted_cases hscan
            refine ⟨c :: (inside ++ '"' :: read), ?_, ?_⟩
            · simp [hquote]
            · obtain rfl : tail' = read ++ rest := hread
              simp
        · cases hs
          obtain rfl : tail = read ++ rest := hread
          exact ⟨c :: read, by simp, rfl⟩

theorem scanOneParameter_append {before text after : List Char} {p : Parameter}
    (hbefore : Blanks before) (h : ParameterText text p) (hafter : Blanks after)
    {rest : List Char} (hrest : AtSeparator rest) :
    scanOneParameter (before ++ (text ++ after) ++ rest) = some (text, rest) := by
  have hne : text ≠ [] := by
    obtain ⟨hname, -, -, -⟩ := h
    simp
  unfold scanOneParameter
  rw [List.append_assoc, dropWhile_isBlank hbefore,
    scanOneParameterLoop_span (h.span.append hafter.span) hrest, List.nil_append,
    Option.map_some, trimEndBlanks_append hafter h.last_not_blank]
  intro c hc
  rw [List.append_assoc, List.head?_append_of_ne_nil _ hne] at hc
  exact h.head_not_blank c hc

theorem scanOneParameter_cases {text param rest : List Char}
    (h : scanOneParameter text = some (param, rest)) :
    AtSeparator rest ∧ ∃ before after, Blanks before ∧ Blanks after ∧
      text = before ++ (param ++ after) ++ rest := by
  obtain ⟨⟨raw, rest'⟩, hexec, hparam⟩ := Option.map_eq_some_iff.mp h
  cases hparam
  obtain ⟨hsep, read, hraw, hread⟩ := scanOneParameterLoop_cases _ _ _ hexec
  obtain rfl : raw = read := hraw
  obtain ⟨before, hbefore, htext⟩ := exists_blanks text
  obtain ⟨after, hafter, htrim⟩ := exists_trimEndBlanks raw
  refine ⟨hsep, before, after, hbefore, hafter, ?_⟩
  dsimp only at hread ⊢
  rw [← htrim, List.append_assoc, ← hread, ← htext]

/-! ## Parameter lists -/

theorem ParametersText.atSeparator {read rest : List Char} {ps : List Parameter}
    (h : ParametersText read ps) (hrest : AtComma rest) : AtSeparator (read ++ rest) := by
  cases h with
  | nil => exact hrest.atSeparator
  | cons hbefore hp hafter hps =>
    rintro c ⟨⟩
    exact .inl rfl

theorem scanParametersLoop_semicolon {text param rest : List Char}
    (h : scanOneParameter text = some (param, rest)) (acc : List (List Char)) :
    scanParametersLoop.step (acc, ';' :: text) = .inr (acc ++ [param], rest) := by
  simp only [scanParametersLoop]
  rw [if_neg (by decide), if_true]
  split
  · next hnone =>
    rw [h] at hnone
    cases hnone
  · next hsome =>
    rw [h] at hsome
    cases hsome
    rfl

theorem scanParametersLoop_append {read : List Char} {ps : List Parameter}
    (h : ParametersText read ps) {rest : List Char} (hrest : AtComma rest)
    (acc : List (List Char)) :
    ∃ texts, List.Forall₂ ParameterText texts ps ∧
      scanParametersLoop.exec (acc, read ++ rest) = some (acc ++ texts, rest) := by
  induction h generalizing acc with
  | nil =>
    refine ⟨[], .nil, Loop.exec_inl ?_⟩
    rw [List.nil_append, List.append_nil]
    cases rest with
    | nil => rfl
    | cons c rest => exact if_pos (hrest c rfl)
  | cons hbefore hp hafter hps ih =>
    next before text after tail p ps =>
    obtain ⟨texts, htexts, hexec⟩ := ih (acc ++ [text])
    refine ⟨text :: texts, .cons hp htexts, ?_⟩
    have hscan := scanOneParameter_append hbefore hp hafter (hps.atSeparator hrest)
    rw [List.append_assoc, List.cons_append, Loop.exec_inr (scanParametersLoop_semicolon hscan acc),
      hexec, List.append_assoc, List.singleton_append]

theorem scanParametersLoop_cases (s : List (List Char) × List Char) :
    ∀ params rest, scanParametersLoop.exec s = some (params, rest) →
      AtComma rest ∧ ∃ texts read, params = s.1 ++ texts ∧ s.2 = read ++ rest ∧
        ∀ ps, List.Forall₂ ParameterText texts ps → ParametersText read ps := by
  apply scanParametersLoop.exec_induction (P := fun s w => ∀ params rest, w = some (params, rest) →
    AtComma rest ∧ ∃ texts read, params = s.1 ++ texts ∧ s.2 = read ++ rest ∧
      ∀ ps, List.Forall₂ ParameterText texts ps → ParametersText read ps)
  · rintro ⟨acc, text⟩ w hs params rest rfl
    have hnil : ∀ ps, List.Forall₂ ParameterText [] ps → ParametersText [] ps := by
      rintro ps ⟨⟩
      exact .nil
    cases text with
    | nil =>
      cases hs
      exact ⟨nofun, [], [], (List.append_nil _).symm, rfl, hnil⟩
    | cons c tail =>
      simp only [scanParametersLoop] at hs
      split at hs
      · next hcomma =>
        cases hs
        refine ⟨?_, [], [], (List.append_nil _).symm, rfl, hnil⟩
        rintro _ ⟨⟩
        exact hcomma
      · split at hs
        · split at hs <;> cases hs
        · cases hs
  · rintro ⟨acc, text⟩ s' hs ih params rest hexec
    obtain ⟨hcomma, texts, read, rfl, hread, hps⟩ := ih params rest hexec
    refine ⟨hcomma, ?_⟩
    cases text with
    | nil => cases hs
    | cons c tail =>
      simp only [scanParametersLoop] at hs
      split at hs
      · cases hs
      · split at hs
        · next hsemicolon =>
          split at hs
          · cases hs
          · next param tail' hscan =>
            cases hs
            obtain rfl : tail' = read ++ rest := hread
            obtain ⟨-, before, after, hbefore, hafter, rfl⟩ := scanOneParameter_cases hscan
            refine ⟨param :: texts, ';' :: (before ++ (param ++ after)) ++ read, by simp,
              by simp [hsemicolon], ?_⟩
            rintro ps (_ | ⟨hp, hrest⟩)
            exact .cons hbefore hp hafter (hps _ hrest)
        · cases hs

/-! ## Elements -/

theorem AtSeparator.head_not_blank {rest : List Char} (h : AtSeparator rest) (c : Char)
    (hc : rest.head? = some c) : isBlank c = false := by
  rcases h c hc with rfl | rfl <;> rfl

theorem scanLinkValue_append {text : List Char} {e : Element} (h : ElementText text e)
    {rest : List Char} (hrest : AtComma rest) :
    scanLinkValue (text ++ rest) = some (e.target, e.isNext, rest) := by
  obtain ⟨htarget, hblanks, hps, honce, hrel⟩ := h
  next target blanks text ps =>
  obtain ⟨texts, htexts, hexec⟩ := scanParametersLoop_append hps hrest []
  have hscan : scanParameters (blanks ++ (text ++ rest)) = some (texts, rest) := by
    rw [scanParameters, dropWhile_isBlank hblanks (hps.atSeparator hrest).head_not_blank, hexec,
      List.nil_append]
  rw [List.cons_append, List.append_assoc, List.cons_append, List.append_assoc, scanLinkValue,
    splitOnce_append htarget]
  simp only [Option.bind_eq_bind, Option.bind_some, hscan,
    (parametersNameNext_eq_some_iff htexts target _).mpr ⟨⟨honce, hrel⟩, rfl⟩]

theorem scanLinkValue_cases {text url rest : List Char} {isNext : Bool}
    (h : scanLinkValue text = some (url, isNext, rest)) :
    AtComma rest ∧ ∃ read e, ElementText read e ∧ text = read ++ rest ∧ url = e.target ∧
      isNext = e.isNext := by
  unfold scanLinkValue at h
  split at h
  · simp only [Option.bind_eq_bind, Option.bind_eq_some_iff, Prod.exists, Option.some.injEq,
      Prod.mk.injEq] at h
    obtain ⟨target, after, hsplit, params, rest', hparams, isNext', hnext, rfl, rfl, rfl⟩ := h
    obtain ⟨htarget, rfl⟩ := splitOnce_cases hsplit
    obtain ⟨hcomma, texts, read, rfl, hread, hps⟩ := scanParametersLoop_cases _ _ _ hparams
    obtain ⟨blanks, hblanks, hafter⟩ := exists_blanks after
    obtain ⟨ps, htexts⟩ := forall₂_of_parametersNameNext hnext
    obtain ⟨⟨honce, hrel⟩, rfl⟩ := (parametersNameNext_eq_some_iff htexts target _).mp hnext
    refine ⟨hcomma, '<' :: (target ++ '>' :: (blanks ++ read)), ⟨target, ps⟩,
      .intro htarget hblanks (hps ps htexts) honce hrel, ?_, rfl, rfl⟩
    dsimp only at hread
    rw [hafter, hread]
    simp
  · cases h

/-! ## Fields -/

theorem ElementText.cons {text : List Char} {e : Element} (h : ElementText text e) :
    ∃ tail, text = '<' :: tail := by
  obtain ⟨-, -, -, -, -⟩ := h
  exact ⟨_, rfl⟩

theorem SlotText.of_nil {slot : Option Element} (h : SlotText [] slot) : slot = none := by
  generalize htext : ([] : List Char) = text at h
  cases h with
  | empty hblanks => rfl
  | element hbefore he =>
    obtain ⟨tail, rfl⟩ := he.cons
    simp at htext

theorem slotText_cons_iff {c : Char} {text : List Char} {slot : Option Element} :
    SlotText (c :: text) slot ↔ isBlank c = true ∧ SlotText text slot ∨
      ∃ e, slot = some e ∧ ElementText (c :: text) e := by
  constructor
  · intro h
    generalize htext : c :: text = whole at h
    cases h with
    | empty hblanks =>
      subst htext
      obtain ⟨hc, hblanks⟩ := List.forall_mem_cons.mp hblanks
      exact .inl ⟨hc, .empty hblanks⟩
    | @element before tail e hbefore he =>
      cases before with
      | nil =>
        obtain rfl : c :: text = tail := htext
        exact .inr ⟨e, rfl, he⟩
      | cons d before =>
        obtain ⟨rfl, rfl⟩ := List.cons.inj htext
        obtain ⟨hc, hbefore⟩ := List.forall_mem_cons.mp hbefore
        exact .inl ⟨hc, .element hbefore he⟩
  · rintro (⟨hc, h⟩ | ⟨e, rfl, he⟩)
    · cases h with
      | empty hblanks => exact .empty (List.forall_mem_cons.mpr ⟨hc, hblanks⟩)
      | element hbefore he =>
        have hblanks : Blanks (c :: _) := List.forall_mem_cons.mpr ⟨hc, hbefore⟩
        exact .element hblanks he
    · have hblanks : Blanks [] := nofun
      exact .element hblanks he

theorem fieldText_iff {text : List Char} {es : List Element} :
    FieldText text es ↔ (∃ slot, SlotText text slot ∧ es = slot.toList) ∨
      ∃ before rest slot es', SlotText before slot ∧ FieldText rest es' ∧
        text = before ++ ',' :: rest ∧ es = slot.toList ++ es' := by
  constructor
  · rintro (⟨h⟩ | ⟨h, hrest⟩)
    · exact .inl ⟨_, h, rfl⟩
    · exact .inr ⟨_, _, _, _, h, hrest, rfl, rfl⟩
  · rintro (⟨slot, h, rfl⟩ | ⟨before, rest, slot, es', h, hrest, rfl, rfl⟩)
    · exact .last h
    · exact .comma h hrest

theorem fieldText_nil {es : List Element} : FieldText [] es ↔ es = [] := by
  rw [fieldText_iff]
  constructor
  · rintro (⟨slot, h, rfl⟩ | ⟨before, rest, slot, es', -, -, h, -⟩)
    · rw [h.of_nil]
      rfl
    · simp at h
  · rintro rfl
    exact .inl ⟨none, .empty nofun, rfl⟩

theorem slotText_blank {c : Char} (hc : isBlank c = true) {text : List Char}
    {slot : Option Element} : SlotText (c :: text) slot ↔ SlotText text slot := by
  rw [slotText_cons_iff]
  constructor
  · rintro (⟨-, h⟩ | ⟨e, -, he⟩)
    · exact h
    · obtain ⟨tail, htail⟩ := he.cons
      obtain ⟨rfl, -⟩ := List.cons.inj htail
      cases hc
  · exact fun h => .inl ⟨hc, h⟩

theorem fieldText_blank {c : Char} (hc : isBlank c = true) {text : List Char}
    {es : List Element} : FieldText (c :: text) es ↔ FieldText text es := by
  have hne : c ≠ ',' := by
    rintro rfl
    cases hc
  constructor
  · intro hfield
    rcases fieldText_iff.mp hfield with
      ⟨slot, h, rfl⟩ | ⟨before, rest, slot, es', h, hrest, htext, rfl⟩
    · exact .last ((slotText_blank hc).mp h)
    · rcases List.cons_eq_append_iff.mp htext with ⟨-, hcomma⟩ | ⟨tail, rfl, rfl⟩
      · exact absurd (List.cons.inj hcomma).1.symm hne
      · exact .comma ((slotText_blank hc).mp h) hrest
  · intro hfield
    rcases fieldText_iff.mp hfield with
      ⟨slot, h, rfl⟩ | ⟨before, rest, slot, es', h, hrest, rfl, rfl⟩
    · exact .last ((slotText_blank hc).mpr h)
    · exact .comma ((slotText_blank hc).mpr h) hrest

theorem fieldText_comma {text : List Char} {es : List Element} :
    FieldText (',' :: text) es ↔ FieldText text es := by
  have hslot : ∀ {tail slot}, ¬ SlotText (',' :: tail) slot := by
    intro tail slot h
    rcases slotText_cons_iff.mp h with ⟨hblank, -⟩ | ⟨e, -, he⟩
    · cases hblank
    · obtain ⟨tail, htail⟩ := he.cons
      cases htail
  constructor
  · intro hfield
    rcases fieldText_iff.mp hfield with
      ⟨slot, h, -⟩ | ⟨before, rest, slot, es', h, hrest, htext, rfl⟩
    · exact absurd h hslot
    · rcases List.cons_eq_append_iff.mp htext with ⟨rfl, htail⟩ | ⟨tail, rfl, -⟩
      · obtain rfl := (List.cons.inj htail).2
        rw [h.of_nil]
        exact hrest
      · exact absurd h hslot
  · intro h
    have hempty : SlotText [] none := .empty nofun
    exact .comma hempty h

/-- What is ahead of an element is empty or begins with a comma. -/
theorem fieldText_element {c : Char} (hc : isBlank c = false) (hcomma : c ≠ ',')
    {text : List Char} {es : List Element} :
    FieldText (c :: text) es ↔ ∃ read e rest es', ElementText read e ∧ AtComma rest ∧
      FieldText rest es' ∧ c :: text = read ++ rest ∧ es = e :: es' := by
  have hslot : ∀ {tail slot}, SlotText (c :: tail) slot →
      ∃ e, slot = some e ∧ ElementText (c :: tail) e := by
    intro tail slot h
    rcases slotText_cons_iff.mp h with ⟨hblank, -⟩ | he
    · rw [hc] at hblank
      cases hblank
    · exact he
  have hempty : FieldText [] [] := fieldText_nil.mpr rfl
  constructor
  · intro hfield
    rcases fieldText_iff.mp hfield with
      ⟨slot, h, rfl⟩ | ⟨before, rest, slot, es', h, hrest, htext, rfl⟩
    · obtain ⟨e, rfl, he⟩ := hslot h
      exact ⟨_, e, [], [], he, nofun, hempty, (List.append_nil _).symm, rfl⟩
    · rcases List.cons_eq_append_iff.mp htext with ⟨-, htail⟩ | ⟨tail, rfl, rfl⟩
      · exact absurd (List.cons.inj htail).1.symm hcomma
      · obtain ⟨e, rfl, he⟩ := hslot h
        refine ⟨_, e, ',' :: rest, es', he, ?_, fieldText_comma.mpr hrest, rfl, rfl⟩
        rintro _ ⟨⟩
        rfl
  · rintro ⟨read, e, rest, es', he, hrest, hfield, htext, rfl⟩
    have hblanks : Blanks [] := nofun
    rw [htext]
    cases rest with
    | nil =>
      rw [fieldText_nil.mp hfield, List.append_nil]
      exact .last (.element hblanks he)
    | cons d rest =>
      obtain rfl := hrest d rfl
      exact .comma (.element hblanks he) (fieldText_comma.mp hfield)

theorem fieldText_dropWhile (text : List Char) (es : List Element) :
    FieldText (text.dropWhile fun c => isBlank c || c == ',') es ↔ FieldText text es := by
  induction text with
  | nil => rfl
  | cons c text ih =>
    rw [List.dropWhile_cons]
    split
    · next hc =>
      rw [ih]
      simp only [Bool.or_eq_true, beq_iff_eq] at hc
      rcases hc with hc | rfl
      · exact (fieldText_blank hc).symm
      · exact fieldText_comma.symm
    · rfl

theorem nextTargets_cons (e : Element) (es : List Element) :
    nextTargets (e :: es) = (if e.isNext then [e.target] else []) ++ nextTargets es := by
  unfold nextTargets
  cases h : e.isNext <;> simp [h]

theorem head_dropWhile {text head : List Char} {c : Char}
    (h : text.dropWhile (fun c => isBlank c || c == ',') = c :: head) :
    isBlank c = false ∧ c ≠ ',' := by
  have hc := List.head?_dropWhile_not (fun c => isBlank c || c == ',') text
  rw [h] at hc
  simp only [List.head?_cons, Bool.or_eq_false_iff, beq_eq_false_iff_ne] at hc
  exact hc

theorem FieldText.scan_head {c : Char} (hc : isBlank c = false) (hcomma : c ≠ ',')
    {head : List Char} {es : List Element} (h : FieldText (c :: head) es) :
    ∃ (e : Element) (rest : List Char) (es' : List Element),
      scanLinkValue (c :: head) = some (e.target, e.isNext, rest) ∧ FieldText rest es' ∧
      nextTargets es = (if e.isNext then [e.target] else []) ++ nextTargets es' := by
  obtain ⟨read, e, rest, es', he, hrest, hfield, htext, rfl⟩ := (fieldText_element hc hcomma).mp h
  refine ⟨e, rest, es', ?_, hfield, nextTargets_cons e es'⟩
  rw [htext]
  exact scanLinkValue_append he hrest

/-- A field is read when it is of the grammar, for the targets of its next elements. -/
theorem collectNextTargetsLoop_eq_some_iff (s : List Char × List (List Char)) :
    ∀ targets, collectNextTargetsLoop.exec s = some targets ↔
      ∃ es, FieldText s.1 es ∧ targets = s.2 ++ nextTargets es := by
  apply collectNextTargetsLoop.exec_induction (P := fun s w => ∀ targets, w = some targets ↔
    ∃ es, FieldText s.1 es ∧ targets = s.2 ++ nextTargets es)
  · rintro ⟨text, before⟩ w hs targets
    simp only [← fieldText_dropWhile text]
    simp only [collectNextTargetsLoop] at hs
    split at hs
    · next hnil =>
      cases hs
      simp only [hnil, fieldText_nil, exists_eq_left, Option.some.injEq]
      rw [nextTargets, List.filter_nil, List.map_nil, List.append_nil, eq_comm]
    · next c head hhead =>
      obtain ⟨hc, hcomma⟩ := head_dropWhile hhead
      split at hs
      · next hscan =>
        cases hs
        simp only [hhead, reduceCtorEq, false_iff]
        rintro ⟨es, hfield, -⟩
        obtain ⟨e, rest, es', hsome, -⟩ := hfield.scan_head hc hcomma
        rw [hscan] at hsome
        cases hsome
      · cases hs
  · rintro ⟨text, before⟩ s' hs ih targets
    simp only [← fieldText_dropWhile text]
    simp only [collectNextTargetsLoop] at hs
    split at hs
    · cases hs
    · next c head hhead =>
      obtain ⟨hc, hcomma⟩ := head_dropWhile hhead
      split at hs
      · cases hs
      · next url isNext rest hscan =>
        cases hs
        rw [ih, hhead]
        have hbefore : ∀ e : Element, (if e.isNext then before ++ [e.target] else before) =
            before ++ if e.isNext then [e.target] else [] := by
          intro e
          cases e.isNext <;> simp
        constructor
        · rintro ⟨es, hfield, rfl⟩
          obtain ⟨hrest, read, e, he, htext, rfl, rfl⟩ := scanLinkValue_cases hscan
          refine ⟨e :: es, ?_, ?_⟩
          · rw [fieldText_element hc hcomma]
            exact ⟨read, e, rest, es, he, hrest, hfield, htext, rfl⟩
          · rw [hbefore, nextTargets_cons, List.append_assoc]
        · rintro ⟨es, hfield, rfl⟩
          obtain ⟨e, rest', es', hsome, hfield', hnext⟩ := hfield.scan_head hc hcomma
          rw [hscan] at hsome
          cases hsome
          refine ⟨es', hfield', ?_⟩
          rw [hbefore, hnext, List.append_assoc]

theorem collectNextTargets_eq_some_iff (linkField : List Char) (before targets : List (List Char)) :
    collectNextTargets linkField before = some targets ↔
      ∃ es, FieldText linkField es ∧ targets = before ++ nextTargets es :=
  collectNextTargetsLoop_eq_some_iff (linkField, before) targets

/-! ## Responses -/

def VisibleAscii (value : List UInt8) : Prop := ∀ b ∈ value, b = 9 ∨ 32 ≤ b ∧ b < 127

def asciiText (value : List UInt8) : List Char := value.map fun b => Char.ofNat b.toNat

/-- Every field is visible ASCII and of the grammar, with these elements. -/
inductive FieldsText : List (List UInt8) → List Element → Prop where
  | nil : FieldsText [] []
  | cons {value : List UInt8} {values : List (List UInt8)} {es es' : List Element}
      (hvisible : VisibleAscii value) (h : FieldText (asciiText value) es)
      (hrest : FieldsText values es') : FieldsText (value :: values) (es ++ es')

theorem headerText_eq_some_iff (value : List UInt8) (text : List Char) :
    headerText value = some text ↔ VisibleAscii value ∧ text = asciiText value := by
  have hall : (value.all fun b => b == 9 || (32 ≤ b && b < 127)) = true ↔ VisibleAscii value := by
    simp [VisibleAscii]
  unfold headerText
  split
  · next h =>
    rw [Option.some.injEq]
    exact ⟨fun htext => ⟨hall.mp h, htext.symm⟩, fun htext => htext.2.symm⟩
  · next h => exact ⟨nofun, fun htext => absurd (hall.mpr htext.1) h⟩

theorem nextTargets_append (es es' : List Element) :
    nextTargets (es ++ es') = nextTargets es ++ nextTargets es' := by
  simp [nextTargets]

/-- The fields of a response are read one after another. -/
def fieldTargets (fields : List (List UInt8)) : Option (List (List Char)) :=
  fields.foldlM (fun targets value => (headerText value).bind fun text =>
    collectNextTargets text targets) []

theorem foldlM_fieldTargets (fields : List (List UInt8)) :
    fields.foldlM (fun targets value => do
      let text ← headerText value
      collectNextTargets text targets) [] = fieldTargets fields := rfl

theorem fieldTargets_eq_some_iff (fields : List (List UInt8)) (targets : List (List Char)) :
    fieldTargets fields = some targets ↔
      ∃ es, FieldsText fields es ∧ targets = nextTargets es := by
  have hrun : ∀ before, fields.foldlM (fun targets value => (headerText value).bind fun text =>
      collectNextTargets text targets) before = some targets ↔
      ∃ es, FieldsText fields es ∧ targets = before ++ nextTargets es := by
    induction fields with
    | nil =>
      intro before
      rw [List.foldlM_nil, Option.pure_def, Option.some.injEq]
      constructor
      · rintro rfl
        exact ⟨[], .nil, (List.append_nil _).symm⟩
      · rintro ⟨es, ⟨⟩, rfl⟩
        exact (List.append_nil _).symm
    | cons value values ih =>
      intro before
      rw [List.foldlM_cons]
      simp only [Option.bind_eq_bind, Option.bind_eq_some_iff, headerText_eq_some_iff,
        collectNextTargets_eq_some_iff, ih]
      constructor
      · rintro ⟨_, ⟨text, ⟨hvisible, rfl⟩, es, hes, rfl⟩, es', hrest, rfl⟩
        exact ⟨es ++ es', .cons hvisible hes hrest, by rw [nextTargets_append, List.append_assoc]⟩
      · rintro ⟨es, hes, rfl⟩
        cases hes with
        | cons hvisible h hrest =>
          refine ⟨_, ⟨_, ⟨hvisible, rfl⟩, _, h, rfl⟩, _, hrest, ?_⟩
          rw [nextTargets_append, List.append_assoc]
  exact hrun []

theorem destutter_eq_singleton_iff (targets : List (List Char)) (target : List Char) :
    targets.destutter (· ≠ ·) = [target] ↔ targets ≠ [] ∧ ∀ t ∈ targets, t = target := by
  cases targets with
  | nil => simp
  | cons first rest =>
    rw [List.destutter_cons']
    induction rest generalizing first with
    | nil => simp
    | cons second rest ih =>
      rw [List.destutter'_cons]
      split
      · next hne =>
        constructor
        · intro h
          exact absurd (List.cons.inj h).2 (List.destutter'_ne_nil _ _)
        · rintro ⟨-, h⟩
          obtain ⟨hfirst, h⟩ := List.forall_mem_cons.mp h
          exact absurd (hfirst.trans (h second (List.mem_cons_self ..)).symm) hne
      · next heq =>
        rw [ih]
        obtain rfl : first = second := not_not.mp heq
        simp

theorem nextLink_eq_one_iff (fields : List (List UInt8)) (url : String) :
    nextLink fields = .one url ↔ ∃ es, FieldsText fields es ∧ nextTargets es ≠ [] ∧
      ∀ target ∈ nextTargets es, target = url.toList := by
  have htargets : nextLink fields = .one url ↔
      ∃ targets, fieldTargets fields = some targets ∧
        targets.destutter (· ≠ ·) = [url.toList] := by
    unfold nextLink
    rw [foldlM_fieldTargets]
    cases fieldTargets fields with
    | none => simp
    | some targets =>
      simp only [Option.some.injEq, exists_eq_left']
      split
      · next h => simp [h]
      · next target h =>
        rw [h, NextLink.one.injEq, List.singleton_inj]
        constructor
        · rintro rfl
          exact String.toList_ofList.symm
        · rintro rfl
          exact String.ofList_toList
      · next hnil hone =>
        simp only [reduceCtorEq, false_iff]
        exact hone _
  rw [htargets]
  simp only [fieldTargets_eq_some_iff, destutter_eq_singleton_iff]
  constructor
  · rintro ⟨_, ⟨es, hes, rfl⟩, hall⟩
    exact ⟨es, hes, hall⟩
  · rintro ⟨es, hes, hall⟩
    exact ⟨_, ⟨es, hes, rfl⟩, hall⟩

theorem nextLink_eq_none_iff (fields : List (List UInt8)) :
    nextLink fields = .none ↔ ∃ es, FieldsText fields es ∧ nextTargets es = [] := by
  have htargets : nextLink fields = .none ↔ fieldTargets fields = some [] := by
    unfold nextLink
    rw [foldlM_fieldTargets]
    cases fieldTargets fields with
    | none => simp
    | some targets =>
      rw [Option.some.injEq]
      dsimp only
      split
      · next h => exact ⟨fun _ => (List.destutter_eq_nil _).mp h, fun _ => rfl⟩
      · next target h =>
        refine ⟨fun hlink => (by cases hlink), ?_⟩
        rintro rfl
        cases h
      · next hnil hone =>
        refine ⟨fun hlink => (by cases hlink), ?_⟩
        rintro rfl
        exact absurd rfl hnil
  rw [htargets, fieldTargets_eq_some_iff]
  exact exists_congr fun es => and_congr_right fun _ => eq_comm

end GhReport.GitHub
