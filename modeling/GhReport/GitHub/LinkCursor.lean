import GhReport.GitHub.LinkFields
import GhReport.Library.ByteText
import GhReport.Library.Effect

/-! # The cursor over a link field

The parser keeps byte offsets into a field and slices the field at them. An
offset that is out of range, or inside a character, ends it.
-/

namespace GhReport.GitHub

open Domain ByteText

/-- Why the cursor stops: the field cannot be read, or an offset cannot be used. -/
inductive CursorError where
  | uninterpretable
  | badIndex
deriving DecidableEq

/-! ## Offsets -/

def byteAt (text : List Char) (idx : ℕ) : Except CursorError UInt8 :=
  match (bytes text)[idx]? with
  | some b => .ok b
  | none => .error .badIndex

def sliceAt (text : List Char) (start stop : ℕ) : Except CursorError (List Char) :=
  match slice text start stop with
  | some read => .ok read
  | none => .error .badIndex

def restAt (text : List Char) (start : ℕ) : Except CursorError (List Char) :=
  match dropBytes text start with
  | some rest => .ok rest
  | none => .error .badIndex

section ByteLoop

variable {σ ω : Type} (text : List Char) (offset : σ → ℕ)
  (next : σ → UInt8 → Except CursorError ω ⊕ σ) (finish : σ → Except CursorError ω)
  (hnext : ∀ s b s', next s b = .inr s' → offset s < offset s')

/-- A loop over the bytes ahead of an offset. -/
def byteLoop : Loop σ (Except CursorError ω) where
  step s :=
    if offset s < (bytes text).length then
      match byteAt text (offset s) with
      | .error e => .inl (.error e)
      | .ok b => next s b
    else .inl (finish s)
  measure s := (bytes text).length - offset s
  decreasing := by
    intro s s' h
    split at h
    · next hlt =>
      split at h
      · cases h
      · have hoffset := hnext _ _ _ h
        omega
    · cases h

variable {text offset next finish hnext}

/-- What holds of each way to return, and back along each step, holds of the loop. -/
theorem byteLoop_induction {P : σ → ω → Prop} (hfinish : ∀ s w, finish s = .ok w → P s w)
    (hdone : ∀ s b w, next s b = .inl (.ok w) → P s w)
    (hgo : ∀ s b s' w, next s b = .inr s' → P s' w → P s w) (s : σ) :
    ∀ w, (byteLoop text offset next finish hnext).exec s = .ok w → P s w := by
  apply (byteLoop text offset next finish hnext).exec_induction
    (P := fun s result => ∀ w, result = .ok w → P s w)
  · rintro s _ hs w rfl
    simp only [byteLoop] at hs
    split at hs
    · split at hs
      · cases hs
      · exact hdone _ _ _ hs
    · exact hfinish _ _ (Sum.inl.inj hs)
  · intro s s' hs ih w hw
    simp only [byteLoop] at hs
    split at hs
    · split at hs
      · cases hs
      · exact hgo _ _ _ _ hs (ih w hw)
    · cases hs

/-- A loop that only returns what is not behind it. -/
theorem le_of_byteLoop (place : ω → ℕ) (hfinish : ∀ s w, finish s = .ok w → offset s ≤ place w)
    (hdone : ∀ s b w, next s b = .inl (.ok w) → offset s ≤ place w) (s : σ) :
    ∀ w, (byteLoop text offset next finish hnext).exec s = .ok w → offset s ≤ place w :=
  byteLoop_induction hfinish hdone
    (fun s b s' _ hs hle => (Nat.le_of_lt (hnext s b s' hs)).trans hle) s

theorem byteLoop_step (htext : Ascii text) (s : σ) :
    (byteLoop text offset next finish hnext).step s = match text.drop (offset s) with
      | [] => .inl (finish s)
      | c :: _ => next s (byte c) := by
  simp only [byteLoop, byteAt, htext.bytes_eq, List.length_map, List.getElem?_map]
  split
  · next hlt =>
    rw [List.drop_eq_getElem_cons hlt, List.getElem?_eq_getElem hlt]
    rfl
  · next hge => rw [List.drop_eq_nil_of_le (not_lt.mp hge)]

theorem byteLoop_nil (htext : Ascii text) {s : σ} (h : text.drop (offset s) = []) :
    (byteLoop text offset next finish hnext).exec s = finish s := by
  refine Loop.exec_inl ?_
  rw [byteLoop_step htext, h]

theorem byteLoop_done (htext : Ascii text) {s : σ} {c : Char} {tail : List Char}
    {w : Except CursorError ω} (h : text.drop (offset s) = c :: tail)
    (hw : next s (byte c) = .inl w) : (byteLoop text offset next finish hnext).exec s = w := by
  refine Loop.exec_inl ?_
  rw [byteLoop_step htext, h]
  exact hw

theorem byteLoop_go (htext : Ascii text) {s s' : σ} {c : Char} {tail : List Char}
    (h : text.drop (offset s) = c :: tail) (hs' : next s (byte c) = .inr s') :
    (byteLoop text offset next finish hnext).exec s =
      (byteLoop text offset next finish hnext).exec s' := by
  refine Loop.exec_inr ?_
  rw [byteLoop_step htext, h]
  exact hs'

end ByteLoop

theorem drop_succ_of_cons {text tail : List Char} {idx : ℕ} {c : Char}
    (h : text.drop idx = c :: tail) :
    idx < text.length ∧ text.drop (idx + 1) = tail ∧ c ∈ text := by
  refine ⟨?_, ?_, List.mem_of_mem_drop (h ▸ List.mem_cons_self ..)⟩
  · by_contra hge
    rw [List.drop_eq_nil_of_le (not_lt.mp hge)] at h
    cases h
  · rw [← List.drop_drop, h, List.drop_one, List.tail_cons]

theorem drop_add_of_append {text read rest : List Char} {idx : ℕ}
    (h : text.drop idx = read ++ rest) : text.drop (idx + read.length) = rest := by
  rw [← List.drop_drop, h, List.drop_left]

/-- What a scanner finds ends the cursor where it can be read, and fails it where it cannot. -/
def ofScan {α : Type} : Option α → Except CursorError α
  | some a => .ok a
  | none => .error .uninterpretable

theorem ofScan_bind {α β : Type} (x : Option α) (f : α → Option β) :
    ofScan (x >>= f) = ofScan x >>= fun a => ofScan (f a) := by
  cases x <;> rfl

theorem foldlM_ofScan {α β : Type} {f : β → α → Except CursorError β} {g : β → α → Option β}
    {l : List α} (h : ∀ a ∈ l, ∀ b, f b a = ofScan (g b a)) (b : β) :
    l.foldlM f b = ofScan (l.foldlM g b) := by
  induction l generalizing b with
  | nil => rfl
  | cons a l ih =>
    obtain ⟨ha, hl⟩ := List.forall_mem_cons.mp h
    rw [List.foldlM_cons, List.foldlM_cons, ofScan_bind, ha]
    exact bind_congr (ih hl)

/-! ## The parser -/

def skipWhitespaceAt (text : List Char) : Loop ℕ (Except CursorError ℕ) :=
  byteLoop text id
    (fun idx b => if b = byte ' ' ∨ b = byte '\t' then .inr (idx + 1) else .inl (.ok idx)) .ok
    (by
      intro idx b idx' h
      split at h
      · cases h
        exact Nat.lt_succ_self _
      · cases h)

/-- Past the closing quote; an escape goes over two bytes. -/
def scanQuotedAt (text : List Char) : Loop ℕ (Except CursorError ℕ) :=
  byteLoop text id
    (fun idx b =>
      if b = byte '\\' then .inr (idx + 2)
      else if b = byte '"' then .inl (.ok (idx + 1))
      else .inr (idx + 1))
    (fun _ => .error .uninterpretable)
    (by
      intro idx b idx' h
      split at h
      · cases h
        exact Nat.lt_add_of_pos_right Nat.two_pos
      · split at h
        · cases h
        · cases h
          exact Nat.lt_succ_self _)

theorem le_of_skipWhitespaceAt {text : List Char} {start stop : ℕ}
    (h : (skipWhitespaceAt text).exec start = .ok stop) : start ≤ stop := by
  refine le_of_byteLoop id ?_ ?_ start stop h
  · rintro s w ⟨⟩
    exact le_rfl
  · intro s b w hdone
    split at hdone
    · cases hdone
    · cases hdone
      exact le_rfl

theorem le_of_scanQuotedAt {text : List Char} {idx stop : ℕ}
    (h : (scanQuotedAt text).exec idx = .ok stop) : idx ≤ stop := by
  refine le_of_byteLoop id nofun ?_ idx stop h
  intro s b w hdone
  split at hdone
  · cases hdone
  · split at hdone
    · cases hdone
      exact Nat.le_succ _
    · cases hdone

/-- One parameter, up to the separator ahead of it; a quoted string hides separators. -/
def scanParameterAt (text : List Char) : Loop ℕ (Except CursorError ℕ) :=
  byteLoop text id
    (fun idx b =>
      if b = byte ';' ∨ b = byte ',' then .inl (.ok idx)
      else if b = byte '"' then
        match (scanQuotedAt text).exec (idx + 1) with
        | .error e => .inl (.error e)
        | .ok idx => .inr idx
      else .inr (idx + 1)) .ok
    (by
      intro idx b idx' h
      split at h
      · cases h
      · split at h
        · split at h
          · cases h
          · next hquoted =>
            cases h
            exact le_of_scanQuotedAt hquoted
        · cases h
          exact Nat.lt_succ_self _)

def scanOneParameterAt (text : List Char) (start : ℕ) :
    Except CursorError (List Char × ℕ) := do
  let start ← (skipWhitespaceAt text).exec start
  let idx ← (scanParameterAt text).exec start
  let param ← sliceAt text start idx
  .ok (trimEndBlanks param, idx)

theorem le_of_scanParameterAt {text : List Char} {idx stop : ℕ}
    (h : (scanParameterAt text).exec idx = .ok stop) : idx ≤ stop := by
  refine le_of_byteLoop id ?_ ?_ idx stop h
  · rintro s w ⟨⟩
    exact le_rfl
  · intro s b w hdone
    split at hdone
    · cases hdone
      exact le_rfl
    · split at hdone
      · split at hdone <;> cases hdone
      · cases hdone

theorem le_of_scanOneParameterAt {text param : List Char} {start stop : ℕ}
    (h : scanOneParameterAt text start = .ok (param, stop)) : start ≤ stop := by
  obtain ⟨first, hfirst, h⟩ := Except.bind_eq_ok_iff.mp h
  obtain ⟨idx, hidx, h⟩ := Except.bind_eq_ok_iff.mp h
  obtain ⟨read, -, h⟩ := Except.bind_eq_ok_iff.mp h
  cases h
  exact (le_of_skipWhitespaceAt hfirst).trans (le_of_scanParameterAt hidx)

/-- The parameters from an offset on, and what is ahead of them. -/
def scanParameterListAt (text : List Char) :
    Loop (List (List Char) × ℕ) (Except CursorError (List (List Char) × List Char)) :=
  byteLoop text Prod.snd
    (fun s b =>
      if b = byte ',' then
        .inl (match restAt text s.2 with
          | .ok rest => .ok (s.1, rest)
          | .error e => .error e)
      else if b = byte ';' then
        match scanOneParameterAt text (s.2 + 1) with
        | .error e => .inl (.error e)
        | .ok (param, idx) => .inr (s.1 ++ [param], idx)
      else .inl (.error .uninterpretable))
    (fun s => .ok (s.1, []))
    (by
      intro s b s' h
      split at h
      · cases h
      · split at h
        · split at h
          · cases h
          · next hparam =>
            cases h
            exact le_of_scanOneParameterAt hparam
        · cases h)

def scanParametersAt (text : List Char) : Except CursorError (List (List Char) × List Char) := do
  let idx ← (skipWhitespaceAt text).exec 0
  (scanParameterListAt text).exec ([], idx)

def parameterValueAt (value : List Char) : Except CursorError (List Char) :=
  if (bytes value).head? = some (byte '"') then do
    let stop ← (scanQuotedAt value).exec 1
    if stop = (bytes value).length then sliceAt value 1 (stop - 1) else .error .uninterpretable
  else if isToken value then .ok value
  else .error .uninterpretable

def parameterRelationsAt (relations : Option (List (List Char))) (param : List Char) :
    Except CursorError (Option (List (List Char))) := do
  let (name, value) ← ofScan (splitOnce '=' param)
  let name := trimEndBlanks name
  if !isToken name then .error .uninterpretable
  else
    let value ← parameterValueAt (value.dropWhile isBlank)
    if eqIgnoreAsciiCase name "rel".toList then
      if relations.isSome then .error .uninterpretable else (ofScan (relationTypes value)).map some
    else .ok relations

def parametersNameNextAt (params : List (List Char)) : Except CursorError Bool := do
  let relations ← params.foldlM parameterRelationsAt none
  .ok (relations.any fun types => types.any fun rel => eqIgnoreAsciiCase rel "next".toList)

/-- The offset of the first occurrence of a character. -/
def findAt (c : Char) (text : List Char) : Except CursorError ℕ :=
  if c ∈ text then .ok (bytes (text.takeWhile (· ≠ c))).length else .error .uninterpretable

/-- One link value: its target, whether it is a next one, and what is ahead. -/
def scanLinkValueAt (head : List Char) : Except CursorError (List Char × Bool × List Char) :=
  if head.head? ≠ some '<' then .error .uninterpretable
  else do
    let stop ← findAt '>' head
    let url ← sliceAt head 1 stop
    let (params, rest) ← scanParametersAt (← restAt head (stop + 1))
    let isNext ← parametersNameNextAt params
    .ok (url, isNext, rest)

theorem length_of_restAt {text rest : List Char} {idx : ℕ} (h : restAt text idx = .ok rest) :
    rest.length ≤ text.length := by
  unfold restAt at h
  split at h
  · next hdrop =>
    cases h
    exact length_le_of_dropBytes hdrop
  · cases h

theorem length_of_scanParametersAt {text rest : List Char} {params : List (List Char)}
    (h : scanParametersAt text = .ok (params, rest)) : rest.length ≤ text.length := by
  obtain ⟨idx, -, h⟩ := Except.bind_eq_ok_iff.mp h
  refine byteLoop_induction (P := fun _ p => p.2.length ≤ text.length) ?_ ?_ ?_ _ _ h
  · rintro s w ⟨⟩
    exact Nat.zero_le _
  · intro s b w hdone
    split at hdone
    · split at hdone
      · next hrest =>
        cases hdone
        exact length_of_restAt hrest
      · cases hdone
    · split at hdone
      · split at hdone <;> cases hdone
      · cases hdone
  · exact fun _ _ _ _ _ h => h

theorem length_of_scanLinkValueAt {head url rest : List Char} {isNext : Bool}
    (h : scanLinkValueAt head = .ok (url, isNext, rest)) : rest.length < head.length := by
  unfold scanLinkValueAt at h
  split at h
  · cases h
  · obtain ⟨stop, -, h⟩ := Except.bind_eq_ok_iff.mp h
    obtain ⟨url', -, h⟩ := Except.bind_eq_ok_iff.mp h
    obtain ⟨after, hafter, h⟩ := Except.bind_eq_ok_iff.mp h
    obtain ⟨⟨params, rest'⟩, hparams, h⟩ := Except.bind_eq_ok_iff.mp h
    obtain ⟨isNext', -, h⟩ := Except.bind_eq_ok_iff.mp h
    cases h
    have hlt : after.length < head.length := by
      unfold restAt at hafter
      split at hafter
      · next hdrop =>
        cases hafter
        exact length_lt_of_dropBytes hdrop
      · cases hafter
    exact lt_of_le_of_lt (length_of_scanParametersAt hparams) hlt

def collectNextTargetsAtLoop :
    Loop (List Char × List (List Char)) (Except CursorError (List (List Char))) where
  step s :=
    match s.1.dropWhile (fun c => isBlank c || c == ',') with
    | [] => .inl (.ok s.2)
    | c :: head =>
      match scanLinkValueAt (c :: head) with
      | .error e => .inl (.error e)
      | .ok (url, isNext, rest) => .inr (rest, if isNext then s.2 ++ [url] else s.2)
  measure s := s.1.length
  decreasing := by
    rintro ⟨text, targets⟩ s' h
    simp only at h
    split at h
    · cases h
    · next hhead =>
      split at h
      · cases h
      · next hvalue =>
        cases h
        have hlt := length_of_scanLinkValueAt hvalue
        rw [← hhead] at hlt
        exact hlt.trans_le (List.dropWhile_sublist _).length_le

/-- What the fields of a response say about a next page; none where an offset cannot be used. -/
def nextLinkAt (fields : List (List UInt8)) : Option NextLink :=
  let targets := fields.foldlM (fun targets value => do
    let text ← ofScan (headerText value)
    collectNextTargetsAtLoop.exec (text, targets)) []
  match targets with
  | .error .badIndex => none
  | .error .uninterpretable => some .uninterpretable
  | .ok targets =>
    match targets.destutter (· ≠ ·) with
    | [] => some .none
    | [url] => some (.one (String.ofList url))
    | _ => some .uninterpretable

end GhReport.GitHub
