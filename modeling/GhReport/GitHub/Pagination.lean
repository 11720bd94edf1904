import GhReport.Domain.Types
import GhReport.Library.Loop
import Mathlib.Data.List.Destutter

/-! # Link headers

The next page of a listing is named by the `Link` fields of a response. A field
that cannot be read, or that names two next pages, is not taken for the end.
-/

namespace GhReport.GitHub

open Domain

/-- What the `Link` fields of a response say about a next page. -/
inductive NextLink where
  | none
  | one (url : String)
  | uninterpretable
deriving DecidableEq

/-! ## Scanning

A scanner reads the text ahead of it; `none` means that the field is uninterpretable.
-/

def isBlank (c : Char) : Bool := c == ' ' || c == '\t'

def trimEndBlanks (text : List Char) : List Char := (text.reverse.dropWhile isBlank).reverse

/-- Past the closing quote of a quoted string: what was read, and what is ahead. -/
def scanQuoted : List Char → Option (List Char × List Char)
  | [] => none
  | '\\' :: escaped :: rest => (scanQuoted rest).map fun p => ('\\' :: escaped :: p.1, p.2)
  | '"' :: rest => some (['"'], rest)
  | c :: rest => (scanQuoted rest).map fun p => (c :: p.1, p.2)

theorem length_of_scanQuoted {text read rest : List Char}
    (h : scanQuoted text = some (read, rest)) :
    rest.length < text.length := by
  induction text using scanQuoted.induct generalizing read with
  | case1 => cases h
  | case2 escaped tail ih =>
    simp only [scanQuoted, Option.map_eq_some_iff, Prod.mk.injEq] at h
    obtain ⟨p, hp, -, rfl⟩ := h
    have hlt : p.2.length < tail.length := ih hp
    simp only [List.length_cons]
    omega
  | case3 tail =>
    cases h
    exact Nat.lt_succ_self _
  | case4 c tail hescape hquote ih =>
    rw [scanQuoted] at h
    · simp only [Option.map_eq_some_iff, Prod.mk.injEq] at h
      obtain ⟨p, hp, -, rfl⟩ := h
      have hlt : p.2.length < tail.length := ih hp
      simp only [List.length_cons]
      omega
    · exact hescape
    · exact hquote

/-- One parameter, up to the separator ahead of it; a quoted string hides separators. -/
def scanOneParameterLoop :
    Loop (List Char × List Char) (Option (List Char × List Char)) where
  step s :=
    match s.2 with
    | [] => .inl (some (s.1, []))
    | c :: rest =>
      if c = ';' ∨ c = ',' then .inl (some (s.1, c :: rest))
      else if c = '"' then
        match h : scanQuoted rest with
        | none => .inl none
        | some (read, rest) => .inr (s.1 ++ '"' :: read, rest)
      else .inr (s.1 ++ [c], rest)
  measure s := s.2.length
  decreasing := by
    rintro ⟨read, text⟩ s' h
    cases text with
    | nil => cases h
    | cons c rest =>
      simp only at h
      split at h
      · cases h
      · split at h
        · split at h
          · cases h
          · next hq =>
            cases h
            exact Nat.lt_succ_of_lt (length_of_scanQuoted hq)
        · cases h
          exact Nat.lt_succ_self _

def scanOneParameter (text : List Char) : Option (List Char × List Char) :=
  (scanOneParameterLoop.exec ([], text.dropWhile isBlank)).map fun p => (trimEndBlanks p.1, p.2)

theorem length_of_scanOneParameter {text param rest : List Char}
    (h : scanOneParameter text = some (param, rest)) : rest.length ≤ text.length := by
  have hloop : ∀ s p, scanOneParameterLoop.exec s = some p → p.2.length ≤ s.2.length := by
    intro s
    apply scanOneParameterLoop.exec_induction
      (P := fun s w => ∀ p, w = some p → p.2.length ≤ s.2.length)
    · rintro ⟨read, text⟩ w hs p rfl
      cases text with
      | nil =>
        cases hs
        exact le_rfl
      | cons c tail =>
        simp only [scanOneParameterLoop] at hs
        split at hs
        · cases hs
          exact le_rfl
        · split at hs
          · split at hs <;> cases hs
          · cases hs
    · intro s s' hs ih p hp
      exact (ih p hp).trans (scanOneParameterLoop.decreasing hs).le
  simp only [scanOneParameter, Option.map_eq_some_iff, Prod.mk.injEq] at h
  obtain ⟨p, hp, -, rfl⟩ := h
  exact (hloop _ p hp).trans (List.dropWhile_sublist _).length_le

/-- The parameters of a link value, up to the comma ahead of them. -/
def scanParametersLoop :
    Loop (List (List Char) × List Char) (Option (List (List Char) × List Char)) where
  step s :=
    match s.2 with
    | [] => .inl (some (s.1, []))
    | c :: rest =>
      if c = ',' then .inl (some (s.1, c :: rest))
      else if c = ';' then
        match h : scanOneParameter rest with
        | none => .inl none
        | some (param, rest) => .inr (s.1 ++ [param], rest)
      else .inl none
  measure s := s.2.length
  decreasing := by
    rintro ⟨params, text⟩ s' h
    cases text with
    | nil => cases h
    | cons c rest =>
      simp only at h
      split at h
      · cases h
      · split at h
        · split at h
          · cases h
          · next hp =>
            cases h
            exact Nat.lt_succ_of_le (length_of_scanOneParameter hp)
        · cases h

def scanParameters (text : List Char) : Option (List (List Char) × List Char) :=
  scanParametersLoop.exec ([], text.dropWhile isBlank)

theorem length_of_scanParameters {text : List Char} {params : List (List Char)} {rest : List Char}
    (h : scanParameters text = some (params, rest)) : rest.length ≤ text.length := by
  have hloop : ∀ s p, scanParametersLoop.exec s = some p → p.2.length ≤ s.2.length := by
    intro s
    apply scanParametersLoop.exec_induction
      (P := fun s w => ∀ p, w = some p → p.2.length ≤ s.2.length)
    · rintro ⟨params, text⟩ w hs p rfl
      cases text with
      | nil =>
        cases hs
        exact le_rfl
      | cons c tail =>
        simp only [scanParametersLoop] at hs
        split at hs
        · cases hs
          exact le_rfl
        · split at hs
          · split at hs <;> cases hs
          · cases hs
    · intro s s' hs ih p hp
      exact (ih p hp).trans (scanParametersLoop.decreasing hs).le
  exact (hloop _ _ h).trans (List.dropWhile_sublist _).length_le

/-! ## Parameters -/

def isToken (text : List Char) : Bool :=
  !text.isEmpty && text.all fun c => c.isAlphanum || "!#$%&'*+-.^_`|~".toList.contains c

def eqIgnoreAsciiCase (a b : List Char) : Bool := a.map Char.toLower == b.map Char.toLower

/-- The value of a parameter: a token, or a quoted string and nothing after it. -/
def parameterValue (value : List Char) : Option (List Char) :=
  match value with
  | '"' :: rest =>
    match scanQuoted rest with
    | some (read, []) => some read.dropLast
    | _ => none
  | _ => if isToken value then some value else none

/-- The words of a text that blanks separate. -/
def splitBlanks (text : List Char) : List (List Char) :=
  (text.splitOnP isBlank).filter fun word => !word.isEmpty

def relationTypes (value : List Char) : Option (List (List Char)) :=
  let types := splitBlanks value
  if types.isEmpty || !types.all isToken then none else some types

/-- One parameter: its relation types if it is the first `rel`. -/
def parameterRelations (relations : Option (List (List Char))) (param : List Char) :
    Option (Option (List (List Char))) := do
  let (name, value) ← splitOnce '=' param
  let name := trimEndBlanks name
  if !isToken name then none
  else
    let value ← parameterValue (value.dropWhile isBlank)
    if eqIgnoreAsciiCase name "rel".toList then
      if relations.isSome then none else (relationTypes value).map some
    else some relations

/-- Whether the parameters name the `next` relation. -/
def parametersNameNext (params : List (List Char)) : Option Bool := do
  let relations ← params.foldlM parameterRelations none
  some (relations.any fun types => types.any fun rel => eqIgnoreAsciiCase rel "next".toList)

/-! ## Fields -/

theorem length_of_splitOnce {c : Char} {text before after : List Char}
    (h : splitOnce c text = some (before, after)) : after.length < text.length := by
  induction text generalizing before with
  | nil => cases h
  | cons d text ih =>
    rw [splitOnce] at h
    split at h
    · cases h
      exact Nat.lt_succ_self _
    · simp only [Option.map_eq_some_iff, Prod.mk.injEq] at h
      obtain ⟨p, hp, -, rfl⟩ := h
      exact Nat.lt_succ_of_lt (ih hp)

/-- One link value of a field: its target, whether it is a next one, and what is ahead. -/
def scanLinkValue (head : List Char) : Option (List Char × Bool × List Char) :=
  match head with
  | '<' :: rest => do
    let (url, rest) ← splitOnce '>' rest
    let (params, rest) ← scanParameters rest
    let isNext ← parametersNameNext params
    some (url, isNext, rest)
  | _ => none

theorem length_of_scanLinkValue {head url rest : List Char} {isNext : Bool}
    (h : scanLinkValue head = some (url, isNext, rest)) : rest.length < head.length := by
  cases head with
  | nil => cases h
  | cons c tail =>
    by_cases hc : c = '<'
    · subst hc
      simp only [scanLinkValue, Option.bind_eq_bind, Option.bind_eq_some_iff, Prod.exists,
        Option.some.injEq, Prod.mk.injEq] at h
      obtain ⟨url', text, hsplit, params, rest', hparams, isNext', -, -, -, rfl⟩ := h
      have hurl := length_of_splitOnce hsplit
      have hrest := length_of_scanParameters hparams
      simp only [List.length_cons]
      omega
    · simp [scanLinkValue, hc] at h

/-- Collect the targets of the next relations of a field. -/
def collectNextTargetsLoop : Loop (List Char × List (List Char)) (Option (List (List Char))) where
  step s :=
    match s.1.dropWhile (fun c => isBlank c || c == ',') with
    | [] => .inl (some s.2)
    | c :: head =>
      match scanLinkValue (c :: head) with
      | none => .inl none
      | some (url, isNext, rest) => .inr (rest, if isNext then s.2 ++ [url] else s.2)
  measure s := s.1.length
  decreasing := by
    rintro ⟨text, targets⟩ s' h
    simp only at h
    split at h
    · cases h
    · next hhead =>
      split at h
      · cases h
      · next hvalue =>
        cases h
        have hlt := length_of_scanLinkValue hvalue
        rw [← hhead] at hlt
        exact hlt.trans_le (List.dropWhile_sublist _).length_le

def collectNextTargets (linkField : List Char) (targets : List (List Char)) :
    Option (List (List Char)) :=
  collectNextTargetsLoop.exec (linkField, targets)

/-- The text of a header value, if all of it is visible ASCII. -/
def headerText (value : List UInt8) : Option (List Char) :=
  if value.all fun b => b == 9 || (32 ≤ b && b < 127) then
    some (value.map fun b => Char.ofNat b.toNat)
  else none

def nextLink (fields : List (List UInt8)) : NextLink :=
  let targets := fields.foldlM (fun targets value => do
    let text ← headerText value
    collectNextTargets text targets) []
  match targets with
  | none => .uninterpretable
  | some targets =>
    match targets.destutter (· ≠ ·) with
    | [] => .none
    | [url] => .one (String.ofList url)
    | _ => .uninterpretable

end GhReport.GitHub
