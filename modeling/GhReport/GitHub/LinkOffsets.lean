import GhReport.GitHub.LinkCursor

/-! # The offsets of the cursor

In a field of visible ASCII each offset of the cursor is in range and between two
characters, and what is sliced at it is what the scanners read. So the cursor
finds what the grammar says.
-/

namespace GhReport.GitHub

open Domain ByteText

/-! ## Offsets of ASCII -/

theorem restAt_ascii {text : List Char} (htext : Ascii text) {idx : ℕ}
    (hidx : idx ≤ text.length) : restAt text idx = .ok (text.drop idx) := by
  rw [restAt, htext.dropBytes_eq hidx]

theorem skipWhitespaceAt_ascii {text : List Char} (htext : Ascii text) {start : ℕ}
    (hstart : start ≤ text.length) :
    ∃ stop, (skipWhitespaceAt text).exec start = .ok stop ∧ start ≤ stop ∧ stop ≤ text.length ∧
      text.drop stop = (text.drop start).dropWhile isBlank := by
  generalize hrest : text.drop start = rest
  induction rest generalizing start with
  | nil => exact ⟨start, byteLoop_nil htext hrest, le_rfl, hstart, hrest⟩
  | cons c rest ih =>
    obtain ⟨hlt, htail, hc⟩ := drop_succ_of_cons hrest
    have hblank : (byte c = byte ' ' ∨ byte c = byte '\t') ↔ isBlank c = true := by
      rw [byte_inj (htext c hc) rfl, byte_inj (htext c hc) rfl]
      simp [isBlank]
    by_cases h : isBlank c = true
    · obtain ⟨stop, hexec, hle, hstop, hdrop⟩ := ih hlt htail
      have hgo : (skipWhitespaceAt text).exec start = (skipWhitespaceAt text).exec (start + 1) :=
        byteLoop_go htext hrest (if_pos (hblank.mpr h))
      refine ⟨stop, hgo.trans hexec, (Nat.le_succ _).trans hle, hstop, ?_⟩
      rw [hdrop, List.dropWhile_cons_of_pos h]
    · refine ⟨start, byteLoop_done htext hrest (if_neg fun hb => h (hblank.mp hb)), le_rfl, hstart,
        ?_⟩
      rw [hrest, List.dropWhile_cons_of_neg h]

/--
The cursor goes over what a scan adds to `acc` of the text ahead, and fails where the scan fails.
-/
def Reads (acc ahead : List Char) (idx : ℕ) (cursor : Except CursorError ℕ) :
    Option (List Char × List Char) → Prop
  | none => cursor = .error .uninterpretable
  | some (raw, rest) => ∃ read, raw = acc ++ read ∧ ahead = read ++ rest ∧
      cursor = .ok (idx + read.length)

section Reads

variable {acc ahead read rest : List Char} {idx : ℕ} {cursor : Except CursorError ℕ}
  {scanned : Option (List Char × List Char)}

theorem Reads.stop (hcursor : cursor = .ok idx) : Reads acc ahead idx cursor (some (acc, ahead)) :=
  ⟨[], (List.append_nil _).symm, rfl, hcursor⟩

/-- A part of the text was read before the rest of it. -/
theorem Reads.behind (front : List Char)
    (h : Reads (acc ++ front) ahead (idx + front.length) cursor scanned) :
    Reads acc (front ++ ahead) idx cursor scanned := by
  cases scanned with
  | none => exact h
  | some p =>
    obtain ⟨read, hraw, rfl, hcursor⟩ := h
    refine ⟨front ++ read, by rw [hraw, List.append_assoc], (List.append_assoc ..).symm, ?_⟩
    rw [hcursor, List.length_append, Nat.add_assoc]

/-- A part of the text is put before what the scan reads of the rest. -/
theorem Reads.map (front : List Char) (h : Reads [] ahead (idx + front.length) cursor scanned) :
    Reads [] (front ++ ahead) idx cursor (scanned.map fun p => (front ++ p.1, p.2)) := by
  refine Reads.behind front ?_
  cases scanned with
  | none => exact h
  | some p =>
    obtain ⟨read, hraw, hahead, hcursor⟩ := h
    exact ⟨read, congrArg (front ++ ·) hraw, hahead, hcursor⟩

theorem Reads.error (h : Reads acc ahead idx cursor none) : cursor = .error .uninterpretable := h

theorem Reads.ok (h : Reads [] ahead idx cursor (some (read, rest))) :
    cursor = .ok (idx + read.length) ∧ ahead = read ++ rest := by
  obtain ⟨read', rfl, hahead, hcursor⟩ := h
  exact ⟨hcursor, hahead⟩

end Reads

theorem scanQuotedAt_ascii {text : List Char} (htext : Ascii text) (idx : ℕ) :
    Reads [] (text.drop idx) idx ((scanQuotedAt text).exec idx) (scanQuoted (text.drop idx)) := by
  generalize hrest : text.drop idx = rest
  induction rest using scanQuoted.induct generalizing idx with
  | case1 => exact byteLoop_nil htext hrest
  | case2 escaped rest ih =>
    obtain ⟨-, htail, -⟩ := drop_succ_of_cons hrest
    have hgo : (scanQuotedAt text).exec idx = (scanQuotedAt text).exec (idx + 2) :=
      byteLoop_go htext hrest (if_pos rfl)
    rw [scanQuoted, hgo]
    exact (ih (idx + 2) (drop_succ_of_cons htail).2.1).map ['\\', escaped]
  | case3 rest =>
    rw [scanQuoted]
    exact ⟨['"'], rfl, rfl, byteLoop_done htext hrest rfl⟩
  | case4 c rest hescape hquote ih =>
    obtain ⟨-, htail, hc⟩ := drop_succ_of_cons hrest
    have htwin := ih (idx + 1) htail
    by_cases hslash : c = '\\'
    · -- A backslash that ends the text: the cursor goes past the end.
      subst hslash
      cases rest with
      | cons d rest => exact absurd rfl (hescape d rest rfl)
      | nil =>
        have hgo : (scanQuotedAt text).exec idx = (scanQuotedAt text).exec (idx + 2) :=
          byteLoop_go htext hrest (if_pos rfl)
        have hend : text.drop (idx + 2) = [] := by
          rw [← List.drop_drop, hrest]
          rfl
        exact hgo.trans (byteLoop_nil htext hend)
    · have hslash' : byte c ≠ byte '\\' := fun h => hslash ((byte_inj (htext c hc) rfl).mp h)
      have hquote' : byte c ≠ byte '"' := fun h => hquote ((byte_inj (htext c hc) rfl).mp h)
      have hgo : (scanQuotedAt text).exec idx = (scanQuotedAt text).exec (idx + 1) :=
        byteLoop_go htext hrest ((if_neg hslash').trans (if_neg hquote'))
      rw [scanQuoted, hgo]
      · exact htwin.map [c]
      · exact hescape
      · exact hquote

theorem scanParameterAt_quote {text tail : List Char} (htext : Ascii text) {idx : ℕ}
    (h : text.drop idx = '"' :: tail) :
    (scanParameterAt text).exec idx = match (scanQuotedAt text).exec (idx + 1) with
      | .error e => .error e
      | .ok stop => (scanParameterAt text).exec stop := by
  have hsep : ¬ (byte '"' = byte ';' ∨ byte '"' = byte ',') := by decide
  cases hquoted : (scanQuotedAt text).exec (idx + 1) with
  | error e =>
    refine byteLoop_done htext h ?_
    rw [if_neg hsep, if_pos rfl, hquoted]
  | ok stop =>
    refine byteLoop_go htext h ?_
    rw [if_neg hsep, if_pos rfl, hquoted]

/-- What the scan of a parameter reads from the text ahead is what the cursor goes over. -/
theorem scanParameterAt_ascii {text : List Char} (htext : Ascii text) (s : List Char × List Char) :
    ∀ idx, text.drop idx = s.2 →
      Reads s.1 s.2 idx ((scanParameterAt text).exec idx) (scanOneParameterLoop.exec s) := by
  apply scanOneParameterLoop.exec_induction (P := fun s w => ∀ idx, text.drop idx = s.2 →
    Reads s.1 s.2 idx ((scanParameterAt text).exec idx) w)
  · rintro ⟨acc, ahead⟩ w hs idx hrest
    dsimp only at hrest
    cases ahead with
    | nil =>
      cases hs
      exact .stop (byteLoop_nil htext hrest)
    | cons c tail =>
      obtain ⟨-, htail, -⟩ := drop_succ_of_cons hrest
      simp only [scanOneParameterLoop] at hs
      split at hs
      · next hsep =>
        cases hs
        refine .stop (byteLoop_done htext hrest (if_pos ?_))
        exact hsep.imp (congrArg byte) (congrArg byte)
      · split at hs
        · next hquote =>
          subst hquote
          split at hs
          · next hscan =>
            cases hs
            have htwin := scanQuotedAt_ascii htext (idx + 1)
            rw [htail, hscan] at htwin
            change (scanParameterAt text).exec idx = .error .uninterpretable
            rw [scanParameterAt_quote htext hrest, htwin.error]
          · cases hs
        · cases hs
  · rintro ⟨acc, ahead⟩ s' hs ih idx hrest
    dsimp only at hrest
    cases ahead with
    | nil => cases hs
    | cons c tail =>
      obtain ⟨-, htail, hc⟩ := drop_succ_of_cons hrest
      simp only [scanOneParameterLoop] at hs
      split at hs
      · cases hs
      · next hsep =>
        split at hs
        · next hquote =>
          subst hquote
          split at hs
          · cases hs
          · next read rest hscan =>
            cases hs
            have htwin := scanQuotedAt_ascii htext (idx + 1)
            rw [htail, hscan] at htwin
            obtain ⟨hexec, rfl⟩ := htwin.ok
            rw [scanParameterAt_quote htext hrest, hexec]
            refine Reads.behind ('"' :: read) ?_
            have hlength : idx + ('"' :: read).length = idx + 1 + read.length := by
              rw [List.length_cons]
              omega
            rw [hlength]
            exact ih _ (drop_add_of_append htail)
        · next hquote =>
          cases hs
          have hsep' : ¬ (byte c = byte ';' ∨ byte c = byte ',') := by
            rw [byte_inj (htext c hc) rfl, byte_inj (htext c hc) rfl]
            exact hsep
          have hquote' : byte c ≠ byte '"' := fun h => hquote ((byte_inj (htext c hc) rfl).mp h)
          have hgo : (scanParameterAt text).exec idx = (scanParameterAt text).exec (idx + 1) :=
            byteLoop_go htext hrest ((if_neg hsep').trans (if_neg hquote'))
          rw [hgo]
          exact Reads.behind [c] (ih _ htail)

theorem scanOneParameterAt_ascii {text : List Char} (htext : Ascii text) {start : ℕ}
    (hstart : start ≤ text.length) :
    match scanOneParameter (text.drop start) with
    | none => scanOneParameterAt text start = .error .uninterpretable
    | some (param, rest) => ∃ stop, scanOneParameterAt text start = .ok (param, stop) ∧
        stop ≤ text.length ∧ text.drop stop = rest := by
  obtain ⟨first, hfirst, -, hfirst', hdrop⟩ := skipWhitespaceAt_ascii htext hstart
  have htwin := scanParameterAt_ascii htext ([], (text.drop start).dropWhile isBlank) first hdrop
  unfold scanOneParameter scanOneParameterAt
  rw [hfirst]
  cases hexec : scanOneParameterLoop.exec ([], (text.drop start).dropWhile isBlank) with
  | none =>
    rw [hexec] at htwin
    dsimp only [bind, Except.bind]
    rw [htwin]
    rfl
  | some p =>
    obtain ⟨raw, rest⟩ := p
    rw [hexec] at htwin
    obtain ⟨read, hread, hrest, hstop⟩ := htwin
    obtain rfl : read = raw := hread.symm
    dsimp only at hrest
    rw [← hdrop] at hrest
    have hrest' := drop_add_of_append hrest
    have hle : first + read.length ≤ text.length := by
      have hlength := congrArg List.length hrest
      rw [List.length_drop, List.length_append] at hlength
      omega
    have hslice : sliceAt text first (first + read.length) = .ok read := by
      rw [sliceAt, htext.slice_eq (Nat.le_add_right ..) hle]
      dsimp only
      rw [List.drop_take, hrest, Nat.add_sub_cancel_left, List.take_left]
    refine ⟨first + read.length, ?_, hle, hrest'⟩
    dsimp only [bind, Except.bind]
    rw [hstop]
    dsimp only
    rw [hslice]

/-- A comma ends the list and is left to the reader. -/
theorem scanParameterListAt_comma {text tail : List Char} (htext : Ascii text) {idx : ℕ}
    (hidx : idx ≤ text.length) (h : text.drop idx = ',' :: tail) (params : List (List Char)) :
    (scanParameterListAt text).exec (params, idx) = .ok (params, ',' :: tail) := by
  refine byteLoop_done htext h ?_
  rw [if_pos rfl]
  dsimp only
  rw [restAt_ascii htext hidx, h]

theorem scanParameterListAt_other {text tail : List Char} {c : Char} (htext : Ascii text) {idx : ℕ}
    (h : text.drop idx = c :: tail) (hcomma : c ≠ ',') (hsemicolon : c ≠ ';')
    (params : List (List Char)) :
    (scanParameterListAt text).exec (params, idx) = .error .uninterpretable := by
  obtain ⟨-, -, hc⟩ := drop_succ_of_cons h
  have hcomma' : byte c ≠ byte ',' := fun e => hcomma ((byte_inj (htext c hc) rfl).mp e)
  have hsemicolon' : byte c ≠ byte ';' := fun e => hsemicolon ((byte_inj (htext c hc) rfl).mp e)
  exact byteLoop_done htext h ((if_neg hcomma').trans (if_neg hsemicolon'))

theorem scanParameterListAt_semicolon {text tail : List Char} (htext : Ascii text) {idx : ℕ}
    (h : text.drop idx = ';' :: tail) (params : List (List Char)) :
    (scanParameterListAt text).exec (params, idx) = match scanOneParameterAt text (idx + 1) with
      | .error e => .error e
      | .ok (param, stop) => (scanParameterListAt text).exec (params ++ [param], stop) := by
  have hcomma : byte ';' ≠ byte ',' := by decide
  cases hparam : scanOneParameterAt text (idx + 1) with
  | error e =>
    refine byteLoop_done htext h ?_
    rw [if_neg hcomma, if_pos rfl]
    dsimp only
    rw [hparam]
  | ok p =>
    refine byteLoop_go htext h ?_
    rw [if_neg hcomma, if_pos rfl]
    dsimp only
    rw [hparam]

/-- The list of parameters that is scanned is the one that the cursor collects. -/
theorem scanParameterListAt_ascii {text : List Char} (htext : Ascii text)
    (s : List (List Char) × List Char) :
    ∀ idx, idx ≤ text.length → text.drop idx = s.2 →
      (scanParameterListAt text).exec (s.1, idx) = ofScan (scanParametersLoop.exec s) := by
  apply scanParametersLoop.exec_induction (P := fun s w => ∀ idx, idx ≤ text.length →
    text.drop idx = s.2 → (scanParameterListAt text).exec (s.1, idx) = ofScan w)
  · rintro ⟨acc, ahead⟩ w hs idx hidx hrest
    dsimp only at hrest ⊢
    cases ahead with
    | nil =>
      cases hs
      exact byteLoop_nil htext hrest
    | cons c tail =>
      obtain ⟨hlt, htail, -⟩ := drop_succ_of_cons hrest
      simp only [scanParametersLoop] at hs
      split at hs
      · next hcomma =>
        subst hcomma
        cases hs
        exact scanParameterListAt_comma htext hidx hrest acc
      · next hcomma =>
        split at hs
        · next hsemicolon =>
          subst hsemicolon
          split at hs
          · next hscan =>
            cases hs
            have htwin := scanOneParameterAt_ascii htext hlt
            rw [htail, hscan] at htwin
            rw [scanParameterListAt_semicolon htext hrest, htwin]
            rfl
          · cases hs
        · next hsemicolon =>
          cases hs
          exact scanParameterListAt_other htext hrest hcomma hsemicolon acc
  · rintro ⟨acc, ahead⟩ s' hs ih idx hidx hrest
    dsimp only at hrest ⊢
    cases ahead with
    | nil => cases hs
    | cons c tail =>
      obtain ⟨hlt, htail, -⟩ := drop_succ_of_cons hrest
      simp only [scanParametersLoop] at hs
      split at hs
      · cases hs
      · split at hs
        · next hsemicolon =>
          subst hsemicolon
          split at hs
          · cases hs
          · next param rest hscan =>
            cases hs
            have htwin := scanOneParameterAt_ascii htext hlt
            rw [htail, hscan] at htwin
            obtain ⟨stop, hparam, hstop, hdrop⟩ := htwin
            rw [scanParameterListAt_semicolon htext hrest, hparam]
            exact ih stop hstop hdrop
        · cases hs

theorem scanParametersAt_ascii {text : List Char} (htext : Ascii text) :
    scanParametersAt text = ofScan (scanParameters text) := by
  obtain ⟨stop, hexec, -, hstop, hdrop⟩ := skipWhitespaceAt_ascii htext (Nat.zero_le _)
  unfold scanParametersAt scanParameters
  dsimp only [bind, Except.bind]
  rw [hexec]
  exact scanParameterListAt_ascii htext ([], text.dropWhile isBlank) stop hstop hdrop

/-! ## The parser on ASCII -/

theorem parameterValueAt_ascii {value : List Char} (hvalue : Ascii value) :
    parameterValueAt value = ofScan (parameterValue value) := by
  have htoken : ∀ value, (if isToken value then .ok value
      else .error .uninterpretable : Except CursorError (List Char)) =
      ofScan (if isToken value then some value else none) := by
    intro value
    cases isToken value <;> rfl
  unfold parameterValueAt
  rw [hvalue.length_bytes, hvalue.bytes_eq]
  cases value with
  | nil => rfl
  | cons c rest =>
    rw [List.map_cons, List.head?_cons]
    by_cases hquote : c = '"'
    · subst hquote
      rw [if_pos rfl, parameterValue]
      have htwin := scanQuotedAt_ascii hvalue 1
      rw [List.drop_one, List.tail_cons] at htwin
      cases hscan : scanQuoted rest with
      | none =>
        rw [hscan] at htwin
        rw [htwin.error]
        rfl
      | some p =>
        obtain ⟨read, tail⟩ := p
        rw [hscan] at htwin
        obtain ⟨hexec, rfl⟩ := htwin.ok
        obtain ⟨body, -, rfl, -⟩ := scanQuoted_cases hscan
        rw [hexec]
        dsimp only [bind, Except.bind]
        cases tail with
        | cons d tail =>
          rw [if_neg]
          · rfl
          · simp only [List.length_cons, List.length_append]
            omega
        | nil =>
          rw [List.append_nil] at hvalue ⊢
          rw [if_pos (by rw [List.length_cons]; omega), sliceAt, hvalue.slice_eq]
          · simp [ofScan]
          · simp
          · simp
    · have hquote' : some (byte c) ≠ some (byte '"') := fun h =>
        hquote ((byte_inj (hvalue c (List.mem_cons_self ..)) rfl).mp (Option.some.inj h))
      rw [if_neg hquote', htoken, parameterValue]
      exact fun _ h => hquote (List.cons.inj h).1

theorem parameterRelationsAt_ascii {param : List Char} (hparam : Ascii param)
    (relations : Option (List (List Char))) :
    parameterRelationsAt relations param = ofScan (parameterRelations relations param) := by
  unfold parameterRelationsAt parameterRelations
  rw [ofScan_bind]
  cases hsplit : splitOnce '=' param with
  | none => rfl
  | some p =>
    obtain ⟨name, value⟩ := p
    obtain ⟨-, rfl⟩ := splitOnce_cases hsplit
    dsimp only [ofScan, bind, Except.bind]
    cases isToken (trimEndBlanks name) with
    | false => rfl
    | true =>
      have hvalue : Ascii (value.dropWhile isBlank) := hparam.mono fun c hc =>
        List.mem_append_right _ (List.mem_cons_of_mem _ ((List.dropWhile_sublist _).subset hc))
      simp only [Bool.not_true, Bool.false_eq_true, if_false]
      rw [parameterValueAt_ascii hvalue]
      cases parameterValue (value.dropWhile isBlank) with
      | none => rfl
      | some value =>
        dsimp only [ofScan, Option.bind]
        cases eqIgnoreAsciiCase (trimEndBlanks name) "rel".toList with
        | false => rfl
        | true =>
          cases relations with
          | some types => rfl
          | none => cases relationTypes value <;> rfl

theorem parametersNameNextAt_ascii {params : List (List Char)} (h : ∀ p ∈ params, Ascii p) :
    parametersNameNextAt params = ofScan (parametersNameNext params) := by
  unfold parametersNameNextAt parametersNameNext
  rw [ofScan_bind,
    foldlM_ofScan fun p hp relations => parameterRelationsAt_ascii (h p hp) relations]
  rfl

/-- The parameters and what is ahead of them are parts of the text. -/
theorem ascii_of_scanParametersLoop (s : List (List Char) × List Char) :
    Ascii s.2 → (∀ p ∈ s.1, Ascii p) → ∀ params rest,
      scanParametersLoop.exec s = some (params, rest) → ∀ p ∈ params, Ascii p := by
  apply scanParametersLoop.exec_induction (P := fun s w => Ascii s.2 → (∀ p ∈ s.1, Ascii p) →
    ∀ params rest, w = some (params, rest) → ∀ p ∈ params, Ascii p)
  · rintro ⟨acc, text⟩ w hs htext hacc params rest rfl
    cases text with
    | nil =>
      cases hs
      exact hacc
    | cons c tail =>
      simp only [scanParametersLoop] at hs
      split at hs
      · cases hs
        exact hacc
      · split at hs
        · split at hs <;> cases hs
        · cases hs
  · rintro ⟨acc, text⟩ s' hs ih htext hacc params rest hexec
    cases text with
    | nil => cases hs
    | cons c tail =>
      simp only [scanParametersLoop] at hs
      split at hs
      · cases hs
      · split at hs
        · split at hs
          · cases hs
          · next param rest' hscan =>
            cases hs
            obtain ⟨-, before, after, -, -, rfl⟩ := scanOneParameter_cases hscan
            refine ih (htext.mono ?_) ?_ params rest hexec
            · intro d hd
              simp [hd]
            · intro p hp
              rcases List.mem_append.mp hp with hp | hp
              · exact hacc p hp
              · obtain rfl := List.mem_singleton.mp hp
                refine htext.mono fun d hd => ?_
                simp [hd]
        · cases hs

theorem splitOnce_eq_none {sep : Char} {text : List Char} (h : splitOnce sep text = none) :
    sep ∉ text := by
  intro hmem
  obtain ⟨before, after, rfl, hnot⟩ := List.eq_append_cons_of_mem hmem
  rw [splitOnce_append hnot] at h
  cases h

theorem scanLinkValueAt_ascii {head : List Char} (hhead : Ascii head) :
    scanLinkValueAt head = ofScan (scanLinkValue head) := by
  cases head with
  | nil => rfl
  | cons c rest =>
    by_cases hopen : c = '<'
    · subst hopen
      have hne : ¬ ('<' :: rest).head? ≠ some '<' := not_not.mpr rfl
      unfold scanLinkValueAt
      rw [if_neg hne, scanLinkValue]
      cases hsplit : splitOnce '>' rest with
      | none =>
        have hnot : '>' ∉ '<' :: rest := by
          rw [List.mem_cons, not_or]
          exact ⟨by decide, splitOnce_eq_none hsplit⟩
        rw [findAt, if_neg hnot]
        rfl
      | some p =>
        obtain ⟨url, after⟩ := p
        obtain ⟨hurl, rfl⟩ := splitOnce_cases hsplit
        have hlength : url.length + 1 ≤ ('<' :: (url ++ '>' :: after)).length := by simp
        have hbefore : ('<' :: (url ++ '>' :: after)).takeWhile (· ≠ '>') = '<' :: url := by
          rw [List.takeWhile_cons_of_pos (by decide), List.takeWhile_append_of_pos]
          · simp
          · exact fun d hd => decide_eq_true fun he => hurl (he ▸ hd)
        have hfind : findAt '>' ('<' :: (url ++ '>' :: after)) = .ok (url.length + 1) := by
          rw [findAt, if_pos (by simp), hbefore, Ascii.length_bytes, List.length_cons]
          exact hhead.mono (List.cons_subset_cons _ (List.subset_append_left ..))
        have hslice : sliceAt ('<' :: (url ++ '>' :: after)) 1 (url.length + 1) = .ok url := by
          rw [sliceAt, hhead.slice_eq (Nat.le_add_left ..) hlength]
          simp
        have hrest : restAt ('<' :: (url ++ '>' :: after)) (url.length + 1 + 1) = .ok after := by
          rw [restAt_ascii hhead (by simp)]
          simp
        have hafter : Ascii after := hhead.mono fun d hd => by simp [hd]
        rw [hfind]
        dsimp only [bind, Except.bind]
        rw [hslice]
        dsimp only
        rw [hrest]
        dsimp only
        rw [scanParametersAt_ascii hafter]
        dsimp only [Option.bind]
        cases hscan : scanParameters after with
        | none => rfl
        | some p =>
          obtain ⟨params, rest⟩ := p
          dsimp only [ofScan]
          rw [parametersNameNextAt_ascii]
          · cases parametersNameNext params <;> rfl
          · refine ascii_of_scanParametersLoop ([], after.dropWhile isBlank)
              (hafter.mono ?_) (fun _ hp => by cases hp) params rest hscan
            exact fun d hd => (List.dropWhile_sublist _).subset hd
    · have hne : (c :: rest).head? ≠ some '<' := fun h => hopen (Option.some.inj h)
      unfold scanLinkValueAt
      rw [if_pos hne, scanLinkValue]
      · rfl
      · exact fun _ h => hopen (List.cons.inj h).1

theorem collectNextTargetsAtLoop_ascii (s : List Char × List (List Char)) :
    Ascii s.1 → collectNextTargetsAtLoop.exec s = ofScan (collectNextTargetsLoop.exec s) := by
  apply collectNextTargetsLoop.exec_induction
    (P := fun s w => Ascii s.1 → collectNextTargetsAtLoop.exec s = ofScan w)
  · rintro ⟨text, targets⟩ w hs htext
    refine Loop.exec_inl ?_
    simp only [collectNextTargetsLoop] at hs
    simp only [collectNextTargetsAtLoop]
    cases hrest : text.dropWhile fun c => isBlank c || c == ',' with
    | nil =>
      rw [hrest] at hs
      cases hs
      rfl
    | cons c head =>
      rw [hrest] at hs
      dsimp only at hs ⊢
      have hascii : Ascii (c :: head) := htext.mono fun d hd =>
        (List.dropWhile_sublist _).subset (hrest ▸ hd)
      rw [scanLinkValueAt_ascii hascii]
      cases hvalue : scanLinkValue (c :: head) with
      | none =>
        rw [hvalue] at hs
        cases hs
        rfl
      | some value =>
        rw [hvalue] at hs
        cases hs
  · rintro ⟨text, targets⟩ s' hs ih htext
    simp only [collectNextTargetsLoop] at hs
    cases hrest : text.dropWhile fun c => isBlank c || c == ',' with
    | nil =>
      rw [hrest] at hs
      cases hs
    | cons c head =>
      rw [hrest] at hs
      dsimp only at hs
      have hascii : Ascii (c :: head) := htext.mono fun d hd =>
        (List.dropWhile_sublist _).subset (hrest ▸ hd)
      cases hvalue : scanLinkValue (c :: head) with
      | none =>
        rw [hvalue] at hs
        cases hs
      | some value =>
        obtain ⟨url, isNext, rest⟩ := value
        rw [hvalue] at hs
        cases hs
        have hstep : collectNextTargetsAtLoop.step (text, targets) =
            .inr (rest, if isNext then targets ++ [url] else targets) := by
          simp only [collectNextTargetsAtLoop]
          rw [hrest]
          dsimp only
          rw [scanLinkValueAt_ascii hascii, hvalue]
          rfl
        rw [Loop.exec_inr hstep]
        refine ih (hascii.mono fun d hd => ?_)
        obtain ⟨-, read, e, -, htext', -, -⟩ := scanLinkValue_cases hvalue
        rw [htext']
        exact List.mem_append_right _ hd

theorem ascii_of_headerText {value : List UInt8} {text : List Char}
    (h : headerText value = some text) : Ascii text := by
  obtain ⟨hvisible, rfl⟩ := (headerText_eq_some_iff ..).mp h
  intro c hc
  obtain ⟨b, hb, rfl⟩ := List.mem_map.mp hc
  have hlt : b.toNat < 128 := by
    rcases hvisible b hb with rfl | ⟨-, hb⟩
    · decide
    · exact (UInt8.lt_iff_toNat_lt.mp hb).trans (by decide)
  have hvalid : b.toNat.isValidChar := .inl (hlt.trans (by decide))
  have hchar : (Char.ofNat b.toNat).val.toNat = b.toNat := by
    rw [Char.ofNat, dif_pos hvalid]
    rfl
  rw [Char.utf8Size_eq_one_iff, UInt32.le_iff_toNat_le, hchar]
  exact Nat.le_of_lt_succ hlt

/-- No offset of the cursor is out of range or inside a character. -/
theorem nextLinkAt_eq (fields : List (List UInt8)) :
    nextLinkAt fields = some (nextLink fields) := by
  have hfold : fields.foldlM (fun targets value => do
      let text ← ofScan (headerText value)
      collectNextTargetsAtLoop.exec (text, targets)) [] = ofScan (fieldTargets fields) := by
    refine foldlM_ofScan (fun value _ targets => ?_) []
    cases htext : headerText value with
    | none => rfl
    | some text => exact collectNextTargetsAtLoop_ascii (text, targets) (ascii_of_headerText htext)
  unfold nextLinkAt
  rw [hfold]
  unfold nextLink
  rw [foldlM_fieldTargets]
  cases fieldTargets fields with
  | none => rfl
  | some targets =>
    dsimp only [ofScan]
    rcases targets.destutter (· ≠ ·) with _ | ⟨url, _ | ⟨second, rest⟩⟩
    · rfl
    · rfl
    · rfl

/--
The cursor never uses an offset that it cannot, names a next page only when the fields are of the
grammar and name a single one, and takes them for the end only when they are and name none.
-/
theorem nextLinkAt_failClosed (fields : List (List UInt8)) :
    nextLinkAt fields ≠ none ∧
    (∀ url, nextLinkAt fields = some (.one url) ↔ ∃ es, FieldsText fields es ∧
      nextTargets es ≠ [] ∧ ∀ target ∈ nextTargets es, target = url.toList) ∧
    (nextLinkAt fields = some .none ↔ ∃ es, FieldsText fields es ∧ nextTargets es = []) ∧
    (nextLinkAt fields = some .uninterpretable ↔
      (¬ ∃ url es, FieldsText fields es ∧ nextTargets es ≠ [] ∧
        ∀ target ∈ nextTargets es, target = String.toList url) ∧
      ¬ ∃ es, FieldsText fields es ∧ nextTargets es = []) := by
  rw [nextLinkAt_eq, ← nextLink_eq_none_iff]
  simp only [Option.some.injEq, ← nextLink_eq_one_iff]
  refine ⟨nofun, fun _ => trivial, trivial, ?_⟩
  cases nextLink fields with
  | none => simp
  | one url => simp
  | uninterpretable => simp

end GhReport.GitHub
