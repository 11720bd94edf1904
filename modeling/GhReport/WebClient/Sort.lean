import GhReport.Collector.Codeowners
import GhReport.Library.Comparator
import Mathlib.Data.Prod.Lex
import Mathlib.Algebra.Order.Ring.Unbundled.Rat

/-! # Sorting of tables

The rows of a table are sorted by the texts of one column. Numbers are compared
as floating-point numbers, and a text that reads as NaN is equal to every number.
Such a comparison is an order only where the numbers of the column are all alike.
-/

namespace GhReport.WebClient

open Comparator
open GitHub (eqIgnoreAsciiCase trim)
open Collector.Codeowners (splitWhitespace)

/-! ## Floating-point numbers -/

inductive F64 where
  | nan | negInf | finite (value : ℚ) | posInf
deriving DecidableEq

def F64.partialCmp : F64 → F64 → Option Ordering
  | nan, _ | _, nan => none
  | negInf, negInf => some .eq
  | negInf, _ => some .lt
  | _, negInf => some .gt
  | posInf, posInf => some .eq
  | posInf, _ => some .gt
  | _, posInf => some .lt
  | finite x, finite y => some (compare x y)

def digitsValue (digits : List Char) : ℕ :=
  digits.foldl (fun value c => 10 * value + (c.toNat - '0'.toNat)) 0

def splitSign : List Char → Bool × List Char
  | '-' :: rest => (true, rest)
  | '+' :: rest => (false, rest)
  | text => (false, text)

/-- What follows the `e` of a number. -/
def parseExponent (text : List Char) : Option ℤ :=
  let (negative, digits) := splitSign text
  if !digits.isEmpty && digits.all Char.isDigit then
    some (if negative then -(digitsValue digits) else digitsValue digits)
  else none

/-- A number without its sign, in decimal, with at least one digit before the exponent. -/
def parseUnsigned (text : List Char) : Option ℚ :=
  let whole := text.takeWhile Char.isDigit
  let afterWhole := text.dropWhile Char.isDigit
  let (fraction, rest) : List Char × List Char :=
    match afterWhole with
    | '.' :: rest => (rest.takeWhile Char.isDigit, rest.dropWhile Char.isDigit)
    | _ => ([], afterWhole)
  let value : ℚ := digitsValue (whole ++ fraction) / 10 ^ fraction.length
  if whole.isEmpty && fraction.isEmpty then none
  else
    match rest with
    | [] => some value
    | 'e' :: exponent | 'E' :: exponent => (parseExponent exponent).map fun e => value * 10 ^ e
    | _ => none

section Parse

-- The rounding of an exact value, to infinity where it is too large.
variable (nearest : ℚ → F64)

def parseF64 (text : List Char) : Option F64 :=
  let (negative, rest) := splitSign text
  let name := rest.map Char.toLower
  if name = "nan".toList then some .nan
  else if name = "inf".toList ∨ name = "infinity".toList then
    some (if negative then .negInf else .posInf)
  else (parseUnsigned rest).map fun value => nearest (if negative then -value else value)

def trimEndMatches (c : Char) (text : List Char) : List Char :=
  (text.reverse.dropWhile (· = c)).reverse

def parseNumeric (s : String) : Option F64 :=
  let trimmed := trim s.toList
  if trimmed.isEmpty then some .negInf
  else
    let token := trimEndMatches '%' ((splitWhitespace trimmed).head?.getD trimmed)
    if eqIgnoreAsciiCase token "n/a".toList then some .negInf
    else
      let cleaned := token.filter (· ≠ ',')
      if cleaned.isEmpty then some .negInf else parseF64 nearest cleaned

/-! ## Comparisons -/

inductive SortType where
  | numeric | date | text | status
deriving DecidableEq

inductive SortDirection where
  | ascending | descending
deriving DecidableEq

def compareNumeric (a b : String) : Ordering :=
  match parseNumeric nearest a, parseNumeric nearest b with
  | some .negInf, some .negInf => compare a b
  | some x, some y => (x.partialCmp y).getD .eq
  | some _, none => .gt
  | none, some _ => .lt
  | none, none => compare a b

inductive KnownStatus where
  | fail | partially | pass
deriving DecidableEq

def KnownStatus.rank : KnownStatus → ℕ
  | fail => 0
  | partially => 1
  | pass => 2

def knownStatus (value : String) : Option KnownStatus :=
  match value with
  | "fail" => some .fail
  | "partial" => some .partially
  | "pass" => some .pass
  | _ => none

def directed (ordering : Ordering) : SortDirection → Ordering
  | .ascending => ordering
  | .descending => ordering.swap

def compareStatus (a b : String) (direction : SortDirection) : Ordering :=
  match knownStatus a, knownStatus b with
  | some a, some b => directed (compare a.rank b.rank) direction
  | some _, none => .lt
  | none, some _ => .gt
  | none, none => .eq

def compareCellsDirected (sortType : SortType) (direction : SortDirection) (a b : String) :
    Ordering :=
  match sortType with
  | .status => compareStatus a b direction
  | .numeric => directed (compareNumeric nearest a b) direction
  | .date | .text => directed (compare a b) direction

/-! ## Tables -/

/-- What is read of a table cell; only HTML elements give up their sort value. -/
structure Cell where
  sortValue : Option String
  textContent : Option String
  isHtml : Bool

structure Row where
  cells : List Cell

structure SortState where
  column : ℕ
  sortType : SortType
  direction : SortDirection

def cellText (row : Row) (column : ℕ) : String :=
  match row.cells[column]? with
  | none => ""
  | some cell =>
    if cell.isHtml then cell.sortValue.getD (cell.textContent.getD "")
    else cell.textContent.getD ""

/-- The text that a row is sorted by. -/
def SortState.text (state : SortState) (row : Row) : String :=
  match state.sortType with
  | .status => (row.cells[state.column]?.bind Cell.sortValue).getD ""
  | .numeric | .date | .text => cellText row state.column

/-- The rows as they are appended again, in order. -/
def applySort (rows : List Row) (state : SortState) : List Row :=
  let texts := rows.map fun row => (row, state.text row)
  (sortBy (fun a b => compareCellsDirected nearest state.sortType state.direction a.2 b.2)
    texts).map Prod.fst

/-! ## Order -/

/-- The cells read as numbers, if they do, of the same place in the order. -/
def Alike (a b : String) : Prop :=
  ∀ x y, parseNumeric nearest a = some x → parseNumeric nearest b = some y →
    x = .nan ∨ y = .nan ∨ (x = y ∧ (x = .negInf → a = b))

/-- Among cells compared as numbers, one that reads as NaN tells no others apart. -/
def NanHarmless (sortType : SortType) (cells : List String) : Prop :=
  sortType = .numeric → ∀ n ∈ cells, parseNumeric nearest n = some .nan →
    ∀ a ∈ cells, ∀ b ∈ cells, Alike nearest a b

variable {nearest}

/-- The place of a cell among the cells that are not NaN. -/
def numericKey (nearest : ℚ → F64) (cell : String) : ℕ ×ₗ ℚ ×ₗ String :=
  match parseNumeric nearest cell with
  | none => toLex (0, toLex (0, cell))
  | some .negInf => toLex (1, toLex (0, cell))
  | some (.finite x) => toLex (2, toLex (x, ""))
  | some .posInf => toLex (3, toLex (0, ""))
  | some .nan => toLex (4, toLex (0, ""))

theorem compareNumeric_eq {a b : String} (ha : parseNumeric nearest a ≠ some .nan)
    (hb : parseNumeric nearest b ≠ some .nan) :
    compareNumeric nearest a b = compare (numericKey nearest a) (numericKey nearest b) := by
  unfold compareNumeric numericKey
  simp only [Prod.Lex.compare_def, compareLex, compareOn]
  cases hx : parseNumeric nearest a with
  | none =>
    cases hy : parseNumeric nearest b with
    | none => simp
    | some y => cases y <;> rfl
  | some x =>
    cases hy : parseNumeric nearest b with
    | none => cases x <;> rfl
    | some y =>
      cases x with
      | nan => exact absurd hx ha
      | negInf | posInf => cases y <;> first | exact absurd hy hb | rfl
      | finite x =>
        cases y with
        | nan => exact absurd hy hb
        | negInf | posInf => rfl
        | finite y => simp [F64.partialCmp]

/-- The place of a cell when all numbers are alike. -/
def textKey (nearest : ℚ → F64) (cell : String) : ℕ ×ₗ String :=
  match parseNumeric nearest cell with
  | none => toLex (0, cell)
  | some _ => toLex (1, "")

theorem compareNumeric_eq_of_alike {a b : String} (h : Alike nearest a b) :
    compareNumeric nearest a b = compare (textKey nearest a) (textKey nearest b) := by
  unfold compareNumeric textKey
  simp only [Prod.Lex.compare_def, compareLex, compareOn]
  cases hx : parseNumeric nearest a with
  | none =>
    cases parseNumeric nearest b with
    | none => simp
    | some _ => rfl
  | some x =>
    cases hy : parseNumeric nearest b with
    | none => cases x <;> rfl
    | some y =>
      rcases h x y hx hy with rfl | rfl | ⟨rfl, htext⟩
      · simp [F64.partialCmp]
      · cases x <;> simp [F64.partialCmp]
      · cases x with
        | negInf => simp [htext rfl]
        | nan | posInf | finite => simp [F64.partialCmp]

/-- NaN is equal to every number. -/
theorem compareNumeric_nan {n a : String} {x : F64} (hn : parseNumeric nearest n = some .nan)
    (ha : parseNumeric nearest a = some x) :
    compareNumeric nearest n a = .eq ∧ compareNumeric nearest a n = .eq := by
  unfold compareNumeric
  rw [hn, ha]
  cases x <;> exact ⟨rfl, rfl⟩

theorem alike_of_eq {a b : String} (h : compareNumeric nearest a b = .eq) :
    Alike nearest a b := by
  intro x y hx hy
  by_cases hnan : x = .nan ∨ y = .nan
  · exact hnan.elim .inl fun hy => .inr (.inl hy)
  · rw [not_or] at hnan
    rw [compareNumeric_eq (hx ▸ fun hn => hnan.1 (Option.some.inj hn))
      (hy ▸ fun hn => hnan.2 (Option.some.inj hn)), compare_eq_iff_eq] at h
    unfold numericKey at h
    rw [hx, hy] at h
    refine .inr (.inr ?_)
    cases x <;> cases y <;> simp_all

/-! ## Statuses -/

/-- The place of a status; the unknown ones are last in both directions. -/
def statusKey (direction : SortDirection) (cell : String) : ℕ :=
  match knownStatus cell, direction with
  | some status, .ascending => status.rank
  | some status, .descending => 2 - status.rank
  | none, _ => 3

theorem compareStatus_eq (direction : SortDirection) (a b : String) :
    compareStatus a b direction = compare (statusKey direction a) (statusKey direction b) := by
  unfold compareStatus statusKey
  cases knownStatus a with
  | none => cases knownStatus b with
    | none => rfl
    | some y => cases y <;> cases direction <;> rfl
  | some x => cases knownStatus b with
    | none => cases x <;> cases direction <;> rfl
    | some y => cases x <;> cases y <;> cases direction <;> rfl

/-! ## The order of a column -/

theorem preorderOn_directed_iff {cmp : String → String → Ordering} {cells : List String}
    (direction : SortDirection) :
    PreorderOn (fun a b => directed (cmp a b) direction) cells ↔ PreorderOn cmp cells := by
  cases direction with
  | ascending => exact Iff.rfl
  | descending => exact PreorderOn.reverse_iff

theorem preorderOn_numeric_iff (cells : List String) :
    PreorderOn (compareNumeric nearest) cells ↔ NanHarmless nearest .numeric cells := by
  constructor
  · intro h _ n hn hnan a ha b hb x y hx hy
    -- Both cells are equal to the one that is not a number.
    have hab : compareNumeric nearest a b = .eq :=
      h.eq_trans ha hn hb (compareNumeric_nan hnan hx).2 (compareNumeric_nan hnan hy).1
    exact alike_of_eq hab x y hx hy
  · intro h
    by_cases hnan : ∃ n ∈ cells, parseNumeric nearest n = some .nan
    · obtain ⟨n, hn, hnan⟩ := hnan
      exact .of_key (textKey nearest) fun a ha b hb =>
        compareNumeric_eq_of_alike (h rfl n hn hnan a ha b hb)
    · exact .of_key (numericKey nearest) fun a ha b hb =>
        compareNumeric_eq (fun hn => hnan ⟨a, ha, hn⟩) fun hn => hnan ⟨b, hb, hn⟩

theorem preorderOn_compareCellsDirected_iff (sortType : SortType) (direction : SortDirection)
    (cells : List String) :
    PreorderOn (compareCellsDirected nearest sortType direction) cells ↔
      NanHarmless nearest sortType cells := by
  have hother : sortType ≠ .numeric → NanHarmless nearest sortType cells := fun h h' => absurd h' h
  cases sortType with
  | numeric => exact (preorderOn_directed_iff direction).trans (preorderOn_numeric_iff cells)
  | date | text =>
    exact iff_of_true ((preorderOn_directed_iff direction).mpr (.of_key id fun _ _ _ _ => rfl))
      (hother nofun)
  | status =>
    exact iff_of_true (.of_key (statusKey direction) fun a _ b _ => compareStatus_eq direction a b)
      (hother nofun)

/-- On a consistent column, the rows come back in order. -/
theorem stablySorted_applySort {rows : List Row} {state : SortState}
    (h : PreorderOn (compareCellsDirected nearest state.sortType state.direction)
      (rows.map state.text)) :
    StablySorted (fun a b => compareCellsDirected nearest state.sortType state.direction
      (state.text a) (state.text b)) rows (applySort nearest rows state) := by
  have hsort : applySort nearest rows state = sortBy (fun a b =>
      compareCellsDirected nearest state.sortType state.direction (state.text a) (state.text b))
      rows := by
    unfold applySort
    dsimp only
    rw [sortBy_map, List.map_map]
    exact List.map_id _
  rw [hsort]
  exact stablySorted_sortBy h.comap

variable (nearest) in
/--
The cells of a column are in a total preorder exactly when none that reads as NaN is with numbers
that differ, and then sorting a table by that column sorts its rows.
-/
theorem compareCellsDirected_preorder_iff :
    (∀ sortType direction cells,
      PreorderOn (compareCellsDirected nearest sortType direction) cells ↔
        NanHarmless nearest sortType cells) ∧
    ∀ (rows : List Row) (state : SortState),
      NanHarmless nearest state.sortType (rows.map state.text) →
      StablySorted (fun a b => compareCellsDirected nearest state.sortType state.direction
        (state.text a) (state.text b)) rows (applySort nearest rows state) :=
  ⟨preorderOn_compareCellsDirected_iff, fun _ _ h =>
    stablySorted_applySort ((preorderOn_compareCellsDirected_iff _ _ _).mpr h)⟩

end Parse

/-! ## A column with NaN -/

/-- Rounding that keeps the value, as it does small integers. -/
def exactly (value : ℚ) : F64 := .finite value

def textRow (text : String) : Row := ⟨[⟨none, some text, true⟩]⟩

/-- A column of rates, one of which is not there. -/
theorem compareCellsDirected_preorder_iff_rates :
    PreorderOn (compareCellsDirected exactly .numeric .descending) ["5%", "N/A", "10%"] ∧
      StablySorted (fun a b => compareCellsDirected exactly .numeric .descending
        (cellText a 0) (cellText b 0)) (["5%", "N/A", "10%"].map textRow)
        (applySort exactly (["5%", "N/A", "10%"].map textRow) ⟨0, .numeric, .descending⟩) := by
  have hnan : ∀ n ∈ ["5%", "N/A", "10%"], parseNumeric exactly n ≠ some .nan := by decide +kernel
  obtain ⟨hcells, hrows⟩ := compareCellsDirected_preorder_iff exactly
  constructor
  · exact (hcells .numeric .descending _).mpr fun _ n hn h => absurd h (hnan n hn)
  · exact hrows _ ⟨0, .numeric, .descending⟩ fun _ n hn h => absurd h (hnan n hn)

/-- Both `2` and `1` are equal to `nan`. -/
theorem not_preorderOn_numeric :
    ¬ ∀ cells, PreorderOn (compareCellsDirected exactly .numeric .ascending) cells := by
  intro hclaim
  have hcmp : compareCellsDirected exactly .numeric .ascending "2" "nan" ≠ .gt ∧
      compareCellsDirected exactly .numeric .ascending "nan" "1" ≠ .gt ∧
      compareCellsDirected exactly .numeric .ascending "2" "1" = .gt := by decide +kernel
  exact (hclaim ["2", "nan", "1"]).trans "2" (by decide) "nan" (by decide) "1" (by decide)
    hcmp.1 hcmp.2.1 hcmp.2.2

end GhReport.WebClient
