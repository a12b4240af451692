import Telegravim.Foundation.Packing
import Telegravim.RichPage.Blocks

set_option autoImplicit false

/-!
# The grid of a table

The editor lays the cells of a table out on a grid: row by row, each cell at the first column at which the slots it
spans are free. A grid of marks remembers the slots taken so far. The measurement of a page does the same to count
the columns of a table, and gives up at the first cell which does not fit.

The indexes of rows and columns are natural numbers here, so the checks of the source for negative ones are gone,
and "no column" is `none` instead of `-1`.

## Main definitions

* `RichPage.canOccupyTableSlots`, `RichPage.firstAvailableTableColumn`, `RichPage.markTableSlots` — the marks.
* `RichPage.buildTableGrid` — the grid of the editor, with the columns bounded by the widest row.
* `RichPage.effectiveTableColumns` — the number of columns that the limits of a message are checked against.

## Main results

* `RichPage.canOccupyTableSlots_eq_true_iff`, `RichPage.firstAvailableTableColumn_eq_some_iff` — what the scans find.
* `RichPage.occupied_markTableSlots`, `RichPage.tableGridColumnCount_markTableSlots` — what marking changes.
-/

namespace RichPage

/-! ### Spans -/

def normalizeTableSpan (span : ℤ) : ℕ := (max span 1).toNat

def clampTableRowspan (rawRowspan : ℤ) (row rowCount : ℕ) : ℕ :=
  if rowCount ≤ row then 0 else min (normalizeTableSpan rawRowspan) (rowCount - row)

def clampTableColspan (rawColspan : ℤ) (column maxColumns : ℕ) : ℕ :=
  if maxColumns ≤ column then 0 else min (normalizeTableSpan rawColspan) (maxColumns - column)

lemma normalizeTableSpan_pos (span : ℤ) : 0 < normalizeTableSpan span := by
  unfold normalizeTableSpan
  omega

@[simp] lemma normalizeTableSpan_normalizeTableSpan (span : ℤ) :
    normalizeTableSpan (normalizeTableSpan span : ℤ) = normalizeTableSpan span := by
  unfold normalizeTableSpan
  omega

/-! ### Marks -/

/-- `TableGridOccupancy`: a row of marks has a mark for each column that was reached in it. -/
abbrev TableGridOccupancy := List (List Bool)

def canOccupyTableSlots (occupancy : TableGridOccupancy) (row column rowspan colspan : ℕ) : Bool :=
  if rowspan = 0 ∨ colspan = 0 ∨ occupancy.length ≤ row then false
  else
    ((occupancy.drop row).take rowspan).all fun occupied =>
      ((occupied.drop column).take colspan).all fun slot => !slot

/-- The loop of `FirstAvailableTableColumn` over the columns that remain. -/
def firstAvailableTableColumnAt (occupancy : TableGridOccupancy) (row rowspan colspan maxColumns : ℕ) :
    ℕ → ℕ → Option ℕ
  | 0, _ => none
  | remaining + 1, column =>
    if canOccupyTableSlots occupancy row column rowspan (clampTableColspan colspan column maxColumns) then
      some column
    else firstAvailableTableColumnAt occupancy row rowspan colspan maxColumns remaining (column + 1)

def firstAvailableTableColumn (occupancy : TableGridOccupancy) (row rowspan colspan maxColumns : ℕ) : Option ℕ :=
  if occupancy.length ≤ row ∨ rowspan = 0 ∨ colspan = 0 then none
  else firstAvailableTableColumnAt occupancy row rowspan colspan maxColumns maxColumns 0

/-- One row of `MarkTableSlots`: the row grows as needed. -/
def markTableRow (column columnLimit : ℕ) (occupied : List Bool) : List Bool :=
  (occupied ++ List.replicate (columnLimit - occupied.length) false).mapIdx fun currentColumn slot =>
    if column ≤ currentColumn ∧ currentColumn < columnLimit then true else slot

def markTableSlots (occupancy : TableGridOccupancy) (row column rowspan colspan : ℕ) : TableGridOccupancy :=
  if rowspan = 0 ∨ colspan = 0 ∨ occupancy.length ≤ row then occupancy
  else
    occupancy.mapIdx fun currentRow occupied =>
      if row ≤ currentRow ∧ currentRow < row + rowspan then markTableRow column (column + colspan) occupied
      else occupied

def tableGridColumnCount (occupancy : TableGridOccupancy) : ℕ :=
  occupancy.foldl (fun result row => max result row.length) 0

/-! ### The two builders -/

structure TableGridCellReference where
  rowIndex : ℕ
  cellIndex : ℕ
  rowFrom : ℕ
  rowTill : ℕ
  columnFrom : ℕ
  columnTill : ℕ
  deriving DecidableEq

structure TableGrid where
  cells : List TableGridCellReference := []
  occupancy : TableGridOccupancy := []
  rowCount : ℕ := 0
  columnCount : ℕ := 0
  deriving DecidableEq

/-- The largest `int`: as many columns as a table can be measured with. -/
def unlimited : ℕ := 2147483647

/-- The widths of the cells of a row, added up; `none` when the sum is no `int` any more. -/
def tableRowColumns (row : TableRow) : Option ℕ :=
  row.cells.foldlM (fun (columns : ℕ) cell =>
    if columns + normalizeTableSpan cell.colspan ≤ unlimited then some (columns + normalizeTableSpan cell.colspan)
    else none) 0

def tableMaxColumns (rows : List TableRow) : Option ℕ :=
  rows.foldlM (fun result row => (tableRowColumns row).map (max result)) 0

/-- One cell of `BuildTableGrid`. -/
def placeTableCell (maxColumns rowIndex : ℕ) (result : TableGrid) (cellIndex : ℕ) (cell : TableCell) : TableGrid :=
  let normalizedColspan := normalizeTableSpan cell.colspan
  let rowspan := clampTableRowspan cell.rowspan rowIndex result.rowCount
  if rowspan = 0 then result
  else
    match firstAvailableTableColumn result.occupancy rowIndex rowspan normalizedColspan maxColumns with
    | none => result
    | some column =>
      let colspan := clampTableColspan normalizedColspan column maxColumns
      if colspan = 0 then result
      else
        { result with
          cells := result.cells ++ [{
            rowIndex := rowIndex, cellIndex := cellIndex, rowFrom := rowIndex, rowTill := rowIndex + rowspan,
            columnFrom := column, columnTill := column + colspan }]
          occupancy := markTableSlots result.occupancy rowIndex column rowspan colspan }

/-- **`BuildTableGrid`**, the builder that bounds the columns by the widest row only. -/
def buildTableGrid (rows : List TableRow) : Option TableGrid := do
  let maxColumns ← tableMaxColumns rows
  let result : TableGrid := { rowCount := rows.length, occupancy := List.replicate rows.length [] }
  if rows.length = 0 ∨ maxColumns = 0 then return result
  let result := rows.zipIdx.foldl (fun result (row, rowIndex) =>
    row.cells.zipIdx.foldl (fun result (cell, cellIndex) =>
      placeTableCell maxColumns rowIndex result cellIndex cell) result) result
  return { result with columnCount := tableGridColumnCount result.occupancy }

/-- One cell of `EffectiveTableColumns`; `none` when the cell finds no room or would be cut. -/
def measureTableCell (rowCount maxColumns rowIndex : ℕ) (occupancy : TableGridOccupancy) (cell : TableCell) :
    Option TableGridOccupancy :=
  let normalizedColspan := normalizeTableSpan cell.colspan
  let rowspan := clampTableRowspan cell.rowspan rowIndex rowCount
  if rowspan = 0 then some occupancy
  else
    match firstAvailableTableColumn occupancy rowIndex rowspan normalizedColspan maxColumns with
    | none => none
    | some column =>
      if clampTableColspan normalizedColspan column maxColumns ≠ normalizedColspan then none
      else
        some (markTableSlots occupancy rowIndex column rowspan
          (clampTableColspan normalizedColspan column maxColumns))

/-- **`EffectiveTableColumns`**: how many columns a table has, up to a bound. -/
def effectiveTableColumns (rows : List TableRow) (maxColumns : ℕ) : ℕ :=
  if rows = [] ∨ maxColumns = 0 then 0
  else
    let measured := rows.zipIdx.foldlM (fun occupancy (row, rowIndex) =>
      row.cells.foldlM (measureTableCell rows.length maxColumns rowIndex) occupancy)
      (List.replicate rows.length [])
    match measured with
    | none => maxColumns
    | some occupancy => tableGridColumnCount occupancy

/-! ### What the marks say -/

/-- A slot is marked. -/
def occupied (occupancy : TableGridOccupancy) (row column : ℕ) : Bool := (occupancy.getD row []).getD column false

/-- The marks of some rows are read one by one. -/
lemma all_take_drop_iff {α : Type} (l : List α) (start count : ℕ) (test : α → Bool) :
    ((l.drop start).take count).all test = true ↔
      ∀ index x, start ≤ index → index < start + count → l[index]? = some x → test x = true := by
  rw [List.all_eq_true]
  constructor
  · intro h index x hstart hcount hx
    refine h x (List.mem_of_getElem? (i := index - start) ?_)
    rw [List.getElem?_take_of_lt (by omega), List.getElem?_drop, Nat.add_sub_cancel' hstart]
    exact hx
  · intro h x hx
    obtain ⟨index, hindex⟩ := List.mem_iff_getElem?.mp hx
    have hcount : index < count := by
      by_contra hover
      rw [List.getElem?_take_eq_none (by omega)] at hindex
      simp at hindex
    rw [List.getElem?_take_of_lt hcount, List.getElem?_drop] at hindex
    exact h (start + index) x (by omega) (by omega) hindex

/-- **What `CanOccupyTableSlots` finds**: no slot of the rectangle is marked. -/
theorem canOccupyTableSlots_eq_true_iff (occupancy : TableGridOccupancy) (row column rowspan colspan : ℕ) :
    canOccupyTableSlots occupancy row column rowspan colspan = true ↔
      row < occupancy.length ∧ 0 < rowspan ∧ 0 < colspan ∧
        ∀ r c, row ≤ r → r < row + rowspan → column ≤ c → c < column + colspan →
          occupied occupancy r c = false := by
  unfold canOccupyTableSlots
  by_cases hguard : rowspan = 0 ∨ colspan = 0 ∨ occupancy.length ≤ row
  · rw [if_pos hguard]
    simp only [Bool.false_eq_true, false_iff]
    rintro ⟨hrow, hrowspan, hcolspan, -⟩
    omega
  · rw [if_neg hguard, all_take_drop_iff]
    have hpos : row < occupancy.length ∧ 0 < rowspan ∧ 0 < colspan := by omega
    constructor
    · intro h
      refine ⟨hpos.1, hpos.2.1, hpos.2.2, ?_⟩
      intro r c hrow hrows hcolumn hcolumns
      rw [occupied, List.getD_eq_getElem?_getD, List.getD_eq_getElem?_getD]
      rcases hline : occupancy[r]? with _ | marks
      · simp
      · rcases hslot : marks[c]? with _ | slot
        · simp [hslot]
        · have hslots := h r marks hrow hrows hline
          rw [all_take_drop_iff] at hslots
          simpa [hslot] using hslots c slot hcolumn hcolumns hslot
    · rintro ⟨-, -, -, h⟩ r line hrow hrows hline
      rw [all_take_drop_iff]
      intro c slot hcolumn hcolumns hslot
      have hfree := h r c hrow hrows hcolumn hcolumns
      rw [occupied, List.getD_eq_getElem?_getD, List.getD_eq_getElem?_getD, hline] at hfree
      simpa [hslot] using hfree

lemma firstAvailableTableColumnAt_eq_some_iff {occupancy : TableGridOccupancy} {row rowspan colspan maxColumns : ℕ}
    (remaining column found : ℕ) :
    firstAvailableTableColumnAt occupancy row rowspan colspan maxColumns remaining column = some found ↔
      (column ≤ found ∧ found < column + remaining) ∧
        canOccupyTableSlots occupancy row found rowspan (clampTableColspan colspan found maxColumns) = true ∧
        ∀ left, column ≤ left → left < found →
          canOccupyTableSlots occupancy row left rowspan (clampTableColspan colspan left maxColumns) = false := by
  induction remaining generalizing column with
  | zero =>
    simp only [firstAvailableTableColumnAt, reduceCtorEq, false_iff]
    rintro ⟨⟨hcolumn, htill⟩, -⟩
    omega
  | succ remaining ih =>
    rw [firstAvailableTableColumnAt]
    rcases hfree : canOccupyTableSlots occupancy row column rowspan
        (clampTableColspan colspan column maxColumns) with _ | _
    · rw [if_neg (by simp), ih]
      constructor
      · rintro ⟨⟨hcolumn, htill⟩, hfound, hleast⟩
        refine ⟨⟨by omega, by omega⟩, hfound, ?_⟩
        intro left hleft hlt
        rcases Nat.eq_or_lt_of_le hleft with rfl | hlater
        · exact hfree
        · exact hleast left hlater hlt
      · rintro ⟨⟨hcolumn, htill⟩, hfound, hleast⟩
        have hlater : column ≠ found := by
          rintro rfl
          simp [hfree] at hfound
        exact ⟨⟨by omega, by omega⟩, hfound, fun left hleft hlt => hleast left (by omega) hlt⟩
    · rw [if_pos rfl]
      constructor
      · intro h
        obtain rfl := Option.some.inj h
        exact ⟨⟨by omega, by omega⟩, hfree, fun left hleft hlt => absurd hlt (by omega)⟩
      · rintro ⟨⟨hcolumn, htill⟩, hfound, hleast⟩
        rcases Nat.eq_or_lt_of_le hcolumn with rfl | hlater
        · rfl
        · simp [hleast column (Nat.le_refl _) hlater] at hfree

/-- **What `FirstAvailableTableColumn` finds**: the first column with room. -/
theorem firstAvailableTableColumn_eq_some_iff {occupancy : TableGridOccupancy}
    {row rowspan colspan maxColumns : ℕ} (hrow : row < occupancy.length) (hrowspan : 0 < rowspan)
    (hcolspan : 0 < colspan) (found : ℕ) :
    firstAvailableTableColumn occupancy row rowspan colspan maxColumns = some found ↔
      found < maxColumns ∧
        canOccupyTableSlots occupancy row found rowspan (clampTableColspan colspan found maxColumns) = true ∧
        ∀ left < found,
          canOccupyTableSlots occupancy row left rowspan (clampTableColspan colspan left maxColumns) = false := by
  rw [firstAvailableTableColumn, if_neg (by omega), firstAvailableTableColumnAt_eq_some_iff]
  simp only [Nat.zero_le, true_and, Nat.zero_add, forall_const]

/-- A scan that finds nothing saw no column with room. -/
lemma firstAvailableTableColumn_eq_none {occupancy : TableGridOccupancy}
    {row rowspan colspan maxColumns : ℕ} (hrow : row < occupancy.length) (hrowspan : 0 < rowspan)
    (hcolspan : 0 < colspan)
    (hnone : firstAvailableTableColumn occupancy row rowspan colspan maxColumns = none) {column : ℕ}
    (hcolumn : column < maxColumns) :
    canOccupyTableSlots occupancy row column rowspan (clampTableColspan colspan column maxColumns) = false := by
  induction column using Nat.strong_induction_on with
  | _ column ih =>
    by_contra hfree
    have hsome := (firstAvailableTableColumn_eq_some_iff hrow hrowspan hcolspan column).mpr
      ⟨hcolumn, by simpa using hfree, fun left hleft => ih left hleft (by omega)⟩
    rw [hnone] at hsome
    cases hsome

/-! ### What marking changes -/

lemma length_markTableRow (column columnLimit : ℕ) (line : List Bool) :
    (markTableRow column columnLimit line).length = max line.length columnLimit := by
  simp only [markTableRow, List.length_mapIdx, List.length_append, List.length_replicate]
  omega

lemma getD_markTableRow (column columnLimit : ℕ) (line : List Bool) (c : ℕ) :
    (markTableRow column columnLimit line).getD c false = true ↔
      line.getD c false = true ∨ (column ≤ c ∧ c < columnLimit) := by
  rw [List.getD_eq_getElem?_getD, List.getD_eq_getElem?_getD, markTableRow, List.getElem?_mapIdx,
    List.getElem?_append]
  by_cases hold : c < line.length
  · rw [if_pos hold, List.getElem?_eq_getElem hold]
    by_cases hin : column ≤ c ∧ c < columnLimit
    · simp [hin]
    · simp [hin]
  · rw [if_neg hold, List.getElem?_replicate, List.getElem?_eq_none (by omega)]
    by_cases hgrown : c - line.length < columnLimit - line.length
    · have hlimit : c < columnLimit := by omega
      simp [hgrown, hlimit]
    · have hlimit : ¬ c < columnLimit := by omega
      simp [hgrown, hlimit]

@[simp] lemma length_markTableSlots (occupancy : TableGridOccupancy) (row column rowspan colspan : ℕ) :
    (markTableSlots occupancy row column rowspan colspan).length = occupancy.length := by
  unfold markTableSlots
  split
  · rfl
  · rw [List.length_mapIdx]

/-- **What marking adds**: the slots of the rectangle. -/
theorem occupied_markTableSlots {occupancy : TableGridOccupancy} {row column rowspan colspan : ℕ}
    (hrows : row + rowspan ≤ occupancy.length) (hrowspan : 0 < rowspan) (hcolspan : 0 < colspan) (r c : ℕ) :
    occupied (markTableSlots occupancy row column rowspan colspan) r c = true ↔
      occupied occupancy r c = true ∨
        ((row ≤ r ∧ r < row + rowspan) ∧ (column ≤ c ∧ c < column + colspan)) := by
  rw [occupied, occupied, markTableSlots, if_neg (by omega)]
  rcases Nat.lt_or_ge r occupancy.length with hr | hr
  · have hline : (occupancy.mapIdx fun currentRow line =>
        if row ≤ currentRow ∧ currentRow < row + rowspan then markTableRow column (column + colspan) line
        else line).getD r [] =
        if row ≤ r ∧ r < row + rowspan then markTableRow column (column + colspan) (occupancy.getD r [])
        else occupancy.getD r [] := by
      simp [hr]
    rw [hline]
    by_cases hin : row ≤ r ∧ r < row + rowspan
    · rw [if_pos hin, getD_markTableRow]
      simp [hin]
    · rw [if_neg hin]
      simp [hin]
  · have hout : ¬ r < row + rowspan := by omega
    simp [List.getElem?_mapIdx, List.getElem?_eq_none hr, hout]

/-- The number of columns is the length of the longest row of marks. -/
lemma tableGridColumnCount_le_iff (occupancy : TableGridOccupancy) (bound : ℕ) :
    tableGridColumnCount occupancy ≤ bound ↔ ∀ line ∈ occupancy, line.length ≤ bound := by
  suffices h : ∀ start, occupancy.foldl (fun result row => max result row.length) start ≤ bound ↔
      start ≤ bound ∧ ∀ line ∈ occupancy, line.length ≤ bound by
    rw [tableGridColumnCount, h]
    simp
  induction occupancy with
  | nil => simp
  | cons line rest ih =>
    intro start
    rw [List.foldl_cons, ih]
    simp only [sup_le_iff, List.mem_cons, forall_eq_or_imp, and_assoc]

/-- Marking makes the grid as wide as the rectangle reaches. -/
theorem tableGridColumnCount_markTableSlots {occupancy : TableGridOccupancy} {row column rowspan colspan : ℕ}
    (hrows : row + rowspan ≤ occupancy.length) (hrowspan : 0 < rowspan) (hcolspan : 0 < colspan) (bound : ℕ) :
    tableGridColumnCount (markTableSlots occupancy row column rowspan colspan) ≤ bound ↔
      tableGridColumnCount occupancy ≤ bound ∧ column + colspan ≤ bound := by
  rw [tableGridColumnCount_le_iff, tableGridColumnCount_le_iff, markTableSlots, if_neg (by omega)]
  simp only [List.mem_mapIdx, forall_exists_index]
  constructor
  · intro h
    constructor
    · intro line hline
      obtain ⟨r, hr, rfl⟩ := List.mem_iff_getElem.mp hline
      have hbound := h _ r hr rfl
      split at hbound
      · rw [length_markTableRow] at hbound
        omega
      · exact hbound
    · have hbound := h _ row (by omega) rfl
      rw [if_pos ⟨Nat.le_refl _, by omega⟩, length_markTableRow] at hbound
      omega
  · rintro ⟨hlines, hreach⟩ line r hr rfl
    have hbound := hlines _ (List.getElem_mem hr)
    split
    · rw [length_markTableRow]
      omega
    · exact hbound

end RichPage
