import GhReport.Library.History
import GhReport.WebClient.Sort

/-! # Sortable tables

The headers of a table change its sort state when they are pressed; an effect sorts
the rows and shows the state at the headers. The effect runs some time after the state
has changed, and once for several changes.
-/

namespace GhReport.WebClient

open GitHub (trim)

/-! ## Sort types -/

def parseSortType : Option String → Option SortType
  | some "numeric" => some .numeric
  | some "date" => some .date
  | some "text" => some .text
  | some "status" => some .status
  | _ => none

def SortDirection.toggled : SortDirection → SortDirection
  | ascending => descending
  | descending => ascending

def isoDatePrefix : List (Char → Bool) :=
  let digit := Char.isDigit
  [digit, digit, digit, digit, (· = '-'), digit, digit, (· = '-'), digit, digit]

def isIsoDatePrefix (text : List Char) : Bool :=
  10 ≤ text.length && (List.zipWith (fun test c => test c) isoDatePrefix text).all id

section Tables

variable (nearest : ℚ → F64)

def detectSortType (cells : List String) : SortType :=
  let samples := (cells.map fun raw => trim raw.toList).filter fun trimmed => !trimmed.isEmpty
  if samples.isEmpty then .text
  else if samples.all fun s => (parseNumeric nearest (String.ofList s)).isSome then .numeric
  else if samples.all isIsoDatePrefix then .date
  else .text

/-! ## Tables -/

/-- A cell of the header row, with the attributes that are read and written. -/
structure Header where
  isHtml : Bool
  nosort : Bool
  sortType : Option String
  tabindex : Option String
  ariaSort : Option String

/-- The headers are the cells of the first row of the head, and the rows those of the body. -/
structure Table where
  header : Option (List Header)
  rows : List Row

def Header.isSortable (th : Header) : Bool := th.isHtml && !th.nosort

def resolveSortType (table : Table) (th : Header) (column : ℕ) : SortType :=
  match parseSortType th.sortType with
  | some sortType => sortType
  | none => detectSortType nearest (table.rows.map fun row => cellText row column)

def ariaValue (state : Option SortState) (column : ℕ) : String :=
  match state with
  | some s =>
    if s.column = column then
      match s.direction with
      | .ascending => "ascending"
      | .descending => "descending"
    else "none"
  | none => "none"

def reflectAriaSort (state : Option SortState) (headers : List Header) : List Header :=
  headers.mapIdx fun i th =>
    if th.isSortable then { th with ariaSort := some (ariaValue state i) } else th

/-- A table with its signal, the listeners by column, and whether the effect is to run. -/
structure WiredTable where
  table : Table
  sortState : Option SortState
  listeners : List (Option SortType)
  pending : Bool

def wireTable (table : Table) : WiredTable :=
  match table.header with
  | none => ⟨table, none, [], false⟩
  | some headers =>
    let headers' := headers.map fun th =>
      if th.isSortable then { th with tabindex := some "0" } else th
    let listeners := headers.mapIdx fun i th =>
      if th.isSortable then some (resolveSortType nearest table th i) else none
    ⟨{ table with header := some headers' }, none, listeners, true⟩

def toggleSortState (current : Option SortState) (column : ℕ) (sortType : SortType) : SortState :=
  let direction := match current with
    | some state => if state.column = column then state.direction.toggled else .ascending
    | none => .ascending
  ⟨column, sortType, direction⟩

inductive TableInput where
  | click (column : ℕ)
  | keydown (column : ℕ) (key : String)
  | flush

namespace WiredTable

variable (s : WiredTable)

/-- The listener of a column, if it has one; the press is recorded. -/
def press (column : ℕ) : List ℕ × WiredTable :=
  match s.listeners[column]?.join with
  | some sortType =>
    ([column], { s with
      sortState := some (toggleSortState s.sortState column sortType), pending := true })
  | none => ([], s)

def effect : WiredTable :=
  let rows := match s.sortState with
    | some state => applySort nearest s.table.rows state
    | none => s.table.rows
  { s with
    table := ⟨s.table.header.map (reflectAriaSort s.sortState), rows⟩, pending := false }

end WiredTable

def tableMachine : Machine WiredTable TableInput (List ℕ) where
  step s input :=
    match input with
    | .click column => s.press column
    | .keydown column key => if key = "Enter" || key = " " then s.press column else ([], s)
    | .flush => ([], if s.pending then s.effect nearest else s)

/-! ## What a table shows -/

/-- Each press of a column turns its direction; the first one of several makes it ascend. -/
def directionPressed (presses : List ℕ) (column : ℕ) : SortDirection :=
  if (presses.rtakeWhile (· = column)).length % 2 = 1 then .ascending else .descending

/-- The last column that was pressed, with the type that it had when the table was wired. -/
def statePressed (listeners : List (Option SortType)) (presses : List ℕ) : Option SortState := do
  let column ← presses.getLast?
  let sortType ← listeners[column]?.join
  some ⟨column, sortType, directionPressed presses column⟩

theorem directionPressed_concat_self (presses : List ℕ) (column : ℕ) :
    directionPressed (presses ++ [column]) column = (directionPressed presses column).toggled := by
  unfold directionPressed
  rw [List.rtakeWhile_concat_pos _ _ _ (by simp), List.length_append, List.length_singleton]
  split_ifs <;> first | rfl | omega

theorem directionPressed_concat_ne (presses : List ℕ) {last column : ℕ} (h : last ≠ column) :
    directionPressed (presses ++ [last]) column = .descending := by
  rw [directionPressed, List.rtakeWhile_concat_neg _ _ _ (by simpa using h)]
  rfl

theorem statePressed_concat {listeners : List (Option SortType)} {column : ℕ}
    {sortType : SortType} (presses : List ℕ) (h : listeners[column]?.join = some sortType) :
    statePressed listeners (presses ++ [column]) =
      some (toggleSortState (statePressed listeners presses) column sortType) := by
  have hlast : statePressed listeners (presses ++ [column]) =
      some ⟨column, sortType, (directionPressed presses column).toggled⟩ := by
    rw [statePressed, List.getLast?_concat, ← directionPressed_concat_self]
    simp [h]
  rw [hlast]
  induction presses using List.reverseRecOn with
  | nil => rfl
  | append_singleton presses last _ =>
    rw [statePressed, List.getLast?_concat]
    rcases eq_or_ne last column with rfl | hne
    · simp [h, toggleSortState]
    · rw [directionPressed_concat_ne presses hne]
      cases hother : listeners[last]?.join with
      | none => simp [hother, toggleSortState, SortDirection.toggled]
      | some other => simp [hother, toggleSortState, SortDirection.toggled, hne]

theorem reflectAriaSort_reflectAriaSort (state state' : Option SortState)
    (headers : List Header) :
    reflectAriaSort state (reflectAriaSort state' headers) = reflectAriaSort state headers := by
  unfold reflectAriaSort
  rw [List.mapIdx_mapIdx]
  congr 1
  ext i th
  rw [Function.comp_apply]
  split_ifs with hth hth'
  · rfl
  · exact absurd hth hth'
  · rfl

/-! ## Every run -/

variable {nearest}

theorem applySort_perm (rows : List Row) (state : SortState) :
    (applySort nearest rows state).Perm rows := by
  have hperm := (List.mergeSort_perm (rows.map fun row => (row, state.text row))
    fun a b => compareCellsDirected nearest state.sortType state.direction a.2 b.2 ≠ .gt).map
      Prod.fst
  rw [List.map_map] at hperm
  exact hperm.trans (by simp [Function.comp_def])

variable (nearest) in
/-- The wired table, after these presses. -/
structure Shows (table : Table) (presses : List ℕ) (s : WiredTable) : Prop where
  listeners : s.listeners = (wireTable nearest table).listeners
  sortState : s.sortState = statePressed s.listeners presses
  rows : s.table.rows.Perm table.rows
  header : ∀ state, s.table.header.map (reflectAriaSort state) =
    (wireTable nearest table).table.header.map (reflectAriaSort state)
  settled : s.pending = false →
    s.table.header = (wireTable nearest table).table.header.map (reflectAriaSort s.sortState) ∧
      ∀ state ∈ s.sortState, ∃ rows, rows.Perm table.rows ∧
        s.table.rows = applySort nearest rows state

variable {table : Table} {presses : List ℕ} {s : WiredTable}

theorem shows_wireTable (table : Table) : Shows nearest table [] (wireTable nearest table) where
  listeners := rfl
  sortState := by
    unfold wireTable
    split <;> rfl
  rows := by
    unfold wireTable
    split <;> rfl
  header _ := rfl
  settled := by
    unfold wireTable
    split
    · rename_i hheader
      intro _
      exact ⟨by simp [hheader], by rintro _ ⟨⟩⟩
    · rintro ⟨⟩

theorem Shows.press (h : Shows nearest table presses s) (column : ℕ) :
    Shows nearest table (presses ++ (s.press column).1) (s.press column).2 := by
  unfold WiredTable.press
  split
  · rename_i sortType hlistener
    exact
      { h with
        sortState := by rw [statePressed_concat presses hlistener, ← h.sortState]
        settled := by rintro ⟨⟩ }
  · rwa [List.append_nil]

theorem Shows.effect (h : Shows nearest table presses s) :
    Shows nearest table presses (s.effect nearest) where
  listeners := h.listeners
  sortState := h.sortState
  rows := by
    rcases hstate : s.sortState with _ | state
    · simpa [WiredTable.effect, hstate] using h.rows
    · simpa [WiredTable.effect, hstate] using (applySort_perm _ state).trans h.rows
  header state := by
    rw [← h.header state, WiredTable.effect, Option.map_map]
    congr 1
    ext1 headers
    exact reflectAriaSort_reflectAriaSort ..
  settled _ := by
    refine ⟨h.header s.sortState, fun state hstate => ⟨s.table.rows, h.rows, ?_⟩⟩
    have hsome : s.sortState = some state := hstate
    simp [WiredTable.effect, hsome]

theorem Shows.step (h : Shows nearest table presses s) (input : TableInput) :
    Shows nearest table (presses ++ ((tableMachine nearest).step s input).1)
      ((tableMachine nearest).step s input).2 := by
  have hsilent : Shows nearest table (presses ++ []) s := by rwa [List.append_nil]
  cases input with
  | click column => exact h.press column
  | keydown column key =>
    dsimp only [tableMachine]
    split
    · exact h.press column
    · exact hsilent
  | flush =>
    dsimp only [tableMachine]
    rw [List.append_nil]
    split
    · exact h.effect
    · exact h

theorem tableMachine_shows (table : Table) (inputs : List TableInput) :
    Shows nearest table ((tableMachine nearest).history (wireTable nearest table) inputs)
      ((tableMachine nearest).after (wireTable nearest table) inputs) :=
  Machine.history_invariant (I := Shows nearest table) (fun _ _ input h => h.step input)
    (shows_wireTable table) inputs

variable (nearest) in
/--
Whatever is pressed and whenever the effect runs: no row is lost, and the column and direction are
those of the presses. Once the effect has run, the headers say so, and the rows are in order, unless
they are sorted by numbers that differ with one among them that is NaN.
-/
theorem tableMachine_sorts (table : Table) (inputs : List TableInput) :
    let wired := wireTable nearest table
    let s := (tableMachine nearest).after wired inputs
    s.sortState =
        statePressed wired.listeners ((tableMachine nearest).history wired inputs) ∧
      s.table.rows.Perm table.rows ∧ ((tableMachine nearest).step s .flush).2.pending = false ∧
      (s.pending = false →
        s.table.header = wired.table.header.map (reflectAriaSort s.sortState) ∧
          ∀ state ∈ s.sortState,
            NanHarmless nearest state.sortType (table.rows.map state.text) →
            s.table.rows.Pairwise fun a b => compareCellsDirected nearest state.sortType
              state.direction (state.text a) (state.text b) ≠ .gt) := by
  intro wired s
  have h : Shows nearest table ((tableMachine nearest).history wired inputs) s :=
    tableMachine_shows table inputs
  refine ⟨by rw [← h.listeners]; exact h.sortState, h.rows, ?_, fun hs => ?_⟩
  · dsimp only [tableMachine]
    cases hpending : s.pending with
    | true => rfl
    | false => exact hpending
  · obtain ⟨hheader, hsorted⟩ := h.settled hs
    refine ⟨hheader, fun state hstate hnan => ?_⟩
    obtain ⟨rows, hperm, hrows⟩ := hsorted state hstate
    have hmem : ∀ cell, cell ∈ rows.map state.text ↔ cell ∈ table.rows.map state.text :=
      fun cell => (hperm.map state.text).mem_iff
    have hharmless : NanHarmless nearest state.sortType (rows.map state.text) := by
      intro htype n hn hnan' a ha b hb
      exact hnan htype n ((hmem n).mp hn) hnan' a ((hmem a).mp ha) b ((hmem b).mp hb)
    rw [hrows]
    exact (stablySorted_applySort
      ((preorderOn_compareCellsDirected_iff _ _ _).mpr hharmless)).pairwise

end Tables

end GhReport.WebClient
