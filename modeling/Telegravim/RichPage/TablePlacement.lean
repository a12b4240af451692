import Telegravim.RichPage.TableGrid

set_option autoImplicit false

/-!
# Where the cells of a table stand

The grid of the editor and the measured number of columns are both packings of the cells of the table, one in a
strip as wide as the widest row and one in a strip as wide as the measurement goes. What holds of packings gives
where the cells stand, and when the two agree.

## Main definitions

* `RichPage.TableEntry`, `RichPage.tableEntries` — the cells of a table, in the order in which they are placed.
* `RichPage.TableEntry.shape` — the piece that a cell is.
* `RichPage.Shows` — the marks show what a packing covers.
* `RichPage.TableGrid.Places` — a grid places a cell with all the columns it spans.

## Main results

* `RichPage.placeTableCell_packs`, `RichPage.measureTableCell_eq_some_iff` — one cell.
* `RichPage.buildTableGrid_packs`, `RichPage.effectiveTableColumns_of_whole` — all cells.
* `RichPage.tableGrid_of_rows` — where the cells stand, and when all of them do.
-/

namespace RichPage

/-! ### The cells in order -/

/-- A cell of a table and where it is. -/
structure TableEntry where
  rowIndex : ℕ
  cellIndex : ℕ
  cell : TableCell
  deriving DecidableEq

/-- The cells of a table, row by row. -/
def tableEntries (rows : List TableRow) : List TableEntry :=
  rows.zipIdx.flatMap fun (row, rowIndex) =>
    row.cells.zipIdx.map fun (cell, cellIndex) => ⟨rowIndex, cellIndex, cell⟩

/-- The cell of a table at an index of a row. -/
def cellAt (rows : List TableRow) (rowIndex cellIndex : ℕ) : Option TableCell :=
  rows[rowIndex]?.bind fun row => row.cells[cellIndex]?

/-- The piece that a cell is in a table with some number of rows. -/
def TableEntry.shape (rowCount : ℕ) (entry : TableEntry) : Packing.Piece where
  row := entry.rowIndex
  height := max 1 (clampTableRowspan entry.cell.rowspan entry.rowIndex rowCount)
  width := normalizeTableSpan entry.cell.colspan
  height_pos := Nat.le_max_left _ _
  width_pos := normalizeTableSpan_pos _

lemma mem_tableEntries {rows : List TableRow} {entry : TableEntry} :
    entry ∈ tableEntries rows ↔ cellAt rows entry.rowIndex entry.cellIndex = some entry.cell := by
  obtain ⟨rowIndex, cellIndex, cell⟩ := entry
  simp only [tableEntries, cellAt, List.mem_flatMap, List.mem_map, Prod.exists, List.mem_zipIdx_iff_getElem?,
    TableEntry.mk.injEq, Option.bind_eq_some_iff]
  constructor
  · rintro ⟨row, rowIndex', hrow, cell', cellIndex', hcell, rfl, rfl, rfl⟩
    exact ⟨row, hrow, hcell⟩
  · rintro ⟨row, hrow, hcell⟩
    exact ⟨row, rowIndex, hrow, cell, cellIndex, hcell, rfl, rfl, rfl⟩

lemma rowIndex_lt_of_mem {rows : List TableRow} {entry : TableEntry} (h : entry ∈ tableEntries rows) :
    entry.rowIndex < rows.length := by
  rw [mem_tableEntries, cellAt, Option.bind_eq_some_iff] at h
  obtain ⟨row, hrow, -⟩ := h
  exact (List.getElem?_eq_some_iff.mp hrow).1

/-- An entry comes before another one in the table. -/
def TableEntry.Before (entry other : TableEntry) : Prop :=
  entry.rowIndex < other.rowIndex ∨ (entry.rowIndex = other.rowIndex ∧ entry.cellIndex < other.cellIndex)

lemma pairwise_zipIdx {α : Type} (l : List α) (start : ℕ) :
    (l.zipIdx start).Pairwise fun p q => p.2 < q.2 := by
  induction l generalizing start with
  | nil => exact List.Pairwise.nil
  | cons x l ih =>
    rw [List.zipIdx_cons]
    refine List.pairwise_cons.mpr ⟨?_, ih (start + 1)⟩
    intro q hq
    exact List.le_snd_of_mem_zipIdx hq

/-- The entries of a table come one before the other. -/
lemma pairwise_tableEntries (rows : List TableRow) : (tableEntries rows).Pairwise TableEntry.Before := by
  rw [tableEntries, List.pairwise_flatMap]
  constructor
  · rintro ⟨row, rowIndex⟩ -
    rw [List.pairwise_map]
    exact (pairwise_zipIdx _ _).imp fun hlt => Or.inr ⟨rfl, hlt⟩
  · refine (pairwise_zipIdx _ _).imp ?_
    rintro ⟨row, rowIndex⟩ ⟨row', rowIndex'⟩ hlt entry hentry other hother
    obtain ⟨⟨cell, cellIndex⟩, -, rfl⟩ := List.mem_map.mp hentry
    obtain ⟨⟨cell', cellIndex'⟩, -, rfl⟩ := List.mem_map.mp hother
    exact Or.inl hlt

lemma nodup_tableEntries (rows : List TableRow) : (tableEntries rows).Nodup := by
  refine (pairwise_tableEntries rows).imp ?_
  rintro entry other hbefore rfl
  rcases hbefore with hrow | ⟨-, hcell⟩
  · exact Nat.lt_irrefl _ hrow
  · exact Nat.lt_irrefl _ hcell

/-- The indexes tell the entries of a table apart. -/
lemma eq_of_mem_tableEntries {rows : List TableRow} {entry other : TableEntry} (hentry : entry ∈ tableEntries rows)
    (hother : other ∈ tableEntries rows) (hrow : entry.rowIndex = other.rowIndex)
    (hcell : entry.cellIndex = other.cellIndex) : entry = other := by
  obtain ⟨rowIndex, cellIndex, cell⟩ := entry
  obtain ⟨rowIndex', cellIndex', cell'⟩ := other
  obtain rfl : rowIndex = rowIndex' := hrow
  obtain rfl : cellIndex = cellIndex' := hcell
  obtain rfl : cell = cell' :=
    Option.some.inj ((mem_tableEntries.mp hentry).symm.trans (mem_tableEntries.mp hother))
  rfl

/-! ### The marks and the packing -/

/-- The marks show the packing of some cells. -/
structure Shows (rowCount bound : ℕ) (occupancy : TableGridOccupancy) (placed : List (TableEntry × ℕ)) : Prop where
  length : occupancy.length = rowCount
  occupied_iff : ∀ r c, occupied occupancy r c = true ↔
    (r, c) ∈ Packing.taken (TableEntry.shape rowCount) bound placed
  columns_iff : ∀ limit, tableGridColumnCount occupancy ≤ limit ↔
    ∀ p ∈ placed, p.2 + Packing.cut bound (p.1.shape rowCount) p.2 ≤ limit

variable {rowCount bound : ℕ} {occupancy : TableGridOccupancy} {placed : List (TableEntry × ℕ)}

/-- A grid without marks shows nothing. -/
lemma Shows.empty (rowCount bound : ℕ) : Shows rowCount bound (List.replicate rowCount []) [] := by
  refine ⟨List.length_replicate, ?_, ?_⟩
  · intro r c
    simp [occupied, List.getD_eq_getElem?_getD, List.getElem?_replicate]
    split <;> simp
  · intro limit
    simp [tableGridColumnCount_le_iff, List.mem_replicate]

/-- A cell of a table gets its rows. -/
lemma height_of_lt {entry : TableEntry} (h : entry.rowIndex < rowCount) :
    (entry.shape rowCount).height = clampTableRowspan entry.cell.rowspan entry.rowIndex rowCount ∧
      entry.rowIndex + (entry.shape rowCount).height ≤ rowCount := by
  have hspan := normalizeTableSpan_pos entry.cell.rowspan
  simp only [TableEntry.shape, clampTableRowspan, if_neg (Nat.not_le.mpr h)]
  omega

/-- Inside the strip a cell is cut as `ClampTableColspan` cuts it. -/
lemma clampTableColspan_eq_cut (rowCount : ℕ) {entry : TableEntry} {column : ℕ} (h : column < bound) :
    clampTableColspan (normalizeTableSpan entry.cell.colspan : ℤ) column bound =
      Packing.cut bound (entry.shape rowCount) column := by
  rw [clampTableColspan, if_neg (Nat.not_le.mpr h), normalizeTableSpan_normalizeTableSpan, Packing.cut,
    TableEntry.shape]

lemma cut_pos (entry : TableEntry) {column : ℕ} (h : column < bound) :
    0 < Packing.cut bound (entry.shape rowCount) column := by
  have hwidth := (entry.shape rowCount).width_pos
  rw [Packing.cut]
  omega

/-- A cell can stand where it has room. -/
lemma Shows.canOccupy_iff (hshows : Shows rowCount bound occupancy placed) {entry : TableEntry}
    (hrow : entry.rowIndex < rowCount) {column : ℕ} (hcolumn : column < bound) :
    canOccupyTableSlots occupancy entry.rowIndex column (entry.shape rowCount).height
        (Packing.cut bound (entry.shape rowCount) column) = true ↔
      Packing.Room (TableEntry.shape rowCount) bound placed entry column := by
  rw [canOccupyTableSlots_eq_true_iff, Packing.Room, Set.disjoint_left]
  have hlength := hshows.length
  constructor
  · rintro ⟨-, -, -, hfree⟩ ⟨r, c⟩ ⟨⟨hfrom, htill⟩, hleft, hright⟩ htaken
    have hmarked := (hshows.occupied_iff r c).mpr htaken
    rw [hfree r c hfrom htill hleft hright] at hmarked
    cases hmarked
  · intro hroom
    refine ⟨by omega, (entry.shape rowCount).height_pos, cut_pos entry hcolumn, ?_⟩
    intro r c hfrom htill hleft hright
    by_contra hmarked
    have hslot : (r, c) ∈ Packing.slots bound (entry.shape rowCount) column :=
      ⟨⟨hfrom, htill⟩, hleft, hright⟩
    exact hroom hslot ((hshows.occupied_iff r c).mp (by simpa using hmarked))

/-- The scan finds the first column of the packing. -/
lemma Shows.first_iff (hshows : Shows rowCount bound occupancy placed) {entry : TableEntry}
    (hrow : entry.rowIndex < rowCount) (column : ℕ) :
    firstAvailableTableColumn occupancy entry.rowIndex (entry.shape rowCount).height
        (entry.shape rowCount).width bound = some column ↔
      Packing.First (TableEntry.shape rowCount) bound placed entry column := by
  have hlength := hshows.length
  rw [firstAvailableTableColumn_eq_some_iff (by omega) (entry.shape rowCount).height_pos
    (entry.shape rowCount).width_pos]
  have hscan : ∀ at' < bound, canOccupyTableSlots occupancy entry.rowIndex at' (entry.shape rowCount).height
      (clampTableColspan ((entry.shape rowCount).width : ℤ) at' bound) = true ↔
        Packing.Room (TableEntry.shape rowCount) bound placed entry at' := by
    intro at' hat
    rw [← hshows.canOccupy_iff hrow hat, ← clampTableColspan_eq_cut rowCount hat]
    rfl
  constructor
  · rintro ⟨hinside, hfree, hleast⟩
    refine ⟨hinside, (hscan column hinside).mp hfree, ?_⟩
    intro left hleft hroom
    have hfree' := (hscan left (by omega)).mpr hroom
    rw [hleast left hleft] at hfree'
    cases hfree'
  · rintro ⟨hinside, hroom, hleast⟩
    refine ⟨hinside, (hscan column hinside).mpr hroom, ?_⟩
    intro left hleft
    by_contra hfree
    exact hleast left hleft ((hscan left (by omega)).mp (by simpa using hfree))

/-- A scan that finds nothing means that there is no room. -/
lemma Shows.no_room (hshows : Shows rowCount bound occupancy placed) {entry : TableEntry}
    (hrow : entry.rowIndex < rowCount)
    (hnone : firstAvailableTableColumn occupancy entry.rowIndex (entry.shape rowCount).height
      (entry.shape rowCount).width bound = none) :
    ∀ column < bound, ¬ Packing.Room (TableEntry.shape rowCount) bound placed entry column := by
  intro column hcolumn hroom
  have hlength := hshows.length
  have hbusy := firstAvailableTableColumn_eq_none (by omega) (entry.shape rowCount).height_pos
    (entry.shape rowCount).width_pos hnone hcolumn
  have hfree := (hshows.canOccupy_iff hrow hcolumn).mpr hroom
  rw [← clampTableColspan_eq_cut rowCount hcolumn] at hfree
  rw [show ((entry.shape rowCount).width : ℤ) = (normalizeTableSpan entry.cell.colspan : ℤ) from rfl, hfree]
    at hbusy
  cases hbusy

/-- Marking the slots of a cell shows the packing with the cell. -/
lemma Shows.mark (hshows : Shows rowCount bound occupancy placed) {entry : TableEntry}
    (hrow : entry.rowIndex < rowCount) {column : ℕ} (hcolumn : column < bound) :
    Shows rowCount bound (markTableSlots occupancy entry.rowIndex column (entry.shape rowCount).height
      (Packing.cut bound (entry.shape rowCount) column)) (placed ++ [(entry, column)]) := by
  have hlength := hshows.length
  have hrows : entry.rowIndex + (entry.shape rowCount).height ≤ occupancy.length := by
    rw [hlength]
    exact (height_of_lt hrow).2
  have hheight := (entry.shape rowCount).height_pos
  have hcut : 0 < Packing.cut bound (entry.shape rowCount) column := cut_pos entry hcolumn
  refine ⟨by rw [length_markTableSlots, hlength], ?_, ?_⟩
  · intro r c
    rw [occupied_markTableSlots hrows hheight hcut, Packing.taken_append, hshows.occupied_iff]
    rfl
  · intro limit
    rw [tableGridColumnCount_markTableSlots hrows hheight hcut, hshows.columns_iff]
    simp only [List.mem_append, List.mem_singleton]
    constructor
    · rintro ⟨hothers, hthis⟩ p (hp | rfl)
      · exact hothers p hp
      · exact hthis
    · intro hall
      exact ⟨fun p hp => hall p (Or.inl hp), hall (entry, column) (Or.inr rfl)⟩

/-! ### One cell -/

/-- What a grid refers to where a cell is placed. -/
def reference (rowCount bound : ℕ) (p : TableEntry × ℕ) : TableGridCellReference where
  rowIndex := p.1.rowIndex
  cellIndex := p.1.cellIndex
  rowFrom := p.1.rowIndex
  rowTill := p.1.rowIndex + (p.1.shape rowCount).height
  columnFrom := p.2
  columnTill := p.2 + Packing.cut bound (p.1.shape rowCount) p.2

/-- A grid is the packing of some cells. -/
structure TableGrid.PacksAs (rowCount bound : ℕ) (grid : TableGrid) (entries : List TableEntry)
    (placed : List (TableEntry × ℕ)) : Prop where
  packs : Packing.Packs (TableEntry.shape rowCount) bound entries placed
  cells_eq : grid.cells = placed.map (reference rowCount bound)
  rowCount_eq : grid.rowCount = rowCount
  shows : Shows rowCount bound grid.occupancy placed

/-- **One cell of `BuildTableGrid`** is packed with the cells before it. -/
theorem placeTableCell_packs {grid : TableGrid} {entries : List TableEntry}
    (h : grid.PacksAs rowCount bound entries placed) {entry : TableEntry} (hrow : entry.rowIndex < rowCount) :
    ∃ placed', (placeTableCell bound entry.rowIndex grid entry.cellIndex entry.cell).PacksAs rowCount bound
      (entries ++ [entry]) placed' := by
  have hheight := (height_of_lt hrow).1
  have hpos := (entry.shape rowCount).height_pos
  unfold placeTableCell
  dsimp only
  rw [h.rowCount_eq, ← hheight, if_neg (by omega)]
  have hwidth : normalizeTableSpan entry.cell.colspan = (entry.shape rowCount).width := rfl
  rcases hscan : firstAvailableTableColumn grid.occupancy entry.rowIndex (entry.shape rowCount).height
      (entry.shape rowCount).width bound with _ | column
  · rw [hwidth, hscan]
    exact ⟨placed, h.packs.leave (h.shows.no_room hrow hscan), h.cells_eq, h.rowCount_eq, h.shows⟩
  · rw [hwidth, hscan]
    have hfirst := (h.shows.first_iff hrow column).mp hscan
    have hcolumn := hfirst.inside
    dsimp only
    rw [← hwidth, clampTableColspan_eq_cut rowCount hcolumn,
      if_neg (Nat.pos_iff_ne_zero.mp (cut_pos entry hcolumn))]
    refine ⟨placed ++ [(entry, column)], h.packs.place hfirst, ?_, rfl, h.shows.mark hrow hcolumn⟩
    rw [List.map_append, ← h.cells_eq]
    rfl

/-- **One cell of `EffectiveTableColumns`** goes through where it has room for all its columns. -/
theorem measureTableCell_eq_some_iff (hshows : Shows rowCount bound occupancy placed) {entry : TableEntry}
    (hrow : entry.rowIndex < rowCount) (occupancy' : TableGridOccupancy) :
    measureTableCell rowCount bound entry.rowIndex occupancy entry.cell = some occupancy' ↔
      ∃ column, Packing.First (TableEntry.shape rowCount) bound placed entry column ∧
        column + (entry.shape rowCount).width ≤ bound ∧
        occupancy' = markTableSlots occupancy entry.rowIndex column (entry.shape rowCount).height
          (Packing.cut bound (entry.shape rowCount) column) := by
  have hheight := (height_of_lt hrow).1
  have hpos := (entry.shape rowCount).height_pos
  have hwide := (entry.shape rowCount).width_pos
  have hwidth : normalizeTableSpan entry.cell.colspan = (entry.shape rowCount).width := rfl
  unfold measureTableCell
  dsimp only
  rw [← hheight, if_neg (by omega)]
  rcases hscan : firstAvailableTableColumn occupancy entry.rowIndex (entry.shape rowCount).height
      (entry.shape rowCount).width bound with _ | column
  · rw [hwidth, hscan]
    simp only [reduceCtorEq, false_iff, not_exists, not_and]
    intro column hfirst
    exact absurd hfirst.room (hshows.no_room hrow hscan column hfirst.inside)
  · rw [hwidth, hscan]
    have hfirst := (hshows.first_iff hrow column).mp hscan
    have hinside := hfirst.inside
    dsimp only
    rw [← hwidth, clampTableColspan_eq_cut rowCount hinside, hwidth]
    by_cases hfits : column + (entry.shape rowCount).width ≤ bound
    · rw [if_neg (by rw [Packing.cut]; omega), Option.some.injEq]
      constructor
      · intro h
        exact ⟨column, hfirst, hfits, h.symm⟩
      · rintro ⟨column', hfirst', -, h⟩
        rw [h, hfirst.unique hfirst']
    · rw [if_pos (by rw [Packing.cut]; omega)]
      simp only [reduceCtorEq, false_iff, not_exists, not_and]
      intro column' hfirst' hfits'
      rw [hfirst.unique hfirst'] at hfits
      exact absurd hfits' hfits

/-! ### All cells -/

/-- The two loops of `BuildTableGrid` are one over the entries. -/
lemma foldl_tableEntries {σ : Type} (rows : List TableRow) (step : ℕ → σ → ℕ → TableCell → σ) (state : σ) :
    rows.zipIdx.foldl (fun state (row, rowIndex) => row.cells.zipIdx.foldl
      (fun state (cell, cellIndex) => step rowIndex state cellIndex cell) state) state =
      (tableEntries rows).foldl (fun state entry => step entry.rowIndex state entry.cellIndex entry.cell) state := by
  rw [tableEntries, List.foldl_flatMap]
  congr 1
  funext state ⟨row, rowIndex⟩
  rw [List.foldl_map]

/-- The two loops of `EffectiveTableColumns` are one over the entries. -/
lemma foldlM_tableEntries {σ : Type} (rows : List TableRow) (step : ℕ → σ → TableCell → Option σ) (state : σ) :
    rows.zipIdx.foldlM (fun state (row, rowIndex) => row.cells.foldlM (step rowIndex) state) state =
      (tableEntries rows).foldlM (fun state entry => step entry.rowIndex state entry.cell) state := by
  rw [tableEntries]
  induction rows.zipIdx generalizing state with
  | nil => rfl
  | cons pair rest ih =>
    obtain ⟨row, rowIndex⟩ := pair
    have hrow : row.cells.foldlM (step rowIndex) state =
        (row.cells.zipIdx.map fun (cell, cellIndex) => (⟨rowIndex, cellIndex, cell⟩ : TableEntry)).foldlM
          (fun state entry => step entry.rowIndex state entry.cell) state := by
      rw [List.foldlM_map]
      conv_lhs => rw [← List.zipIdx_map_fst 0 row.cells, List.foldlM_map]
    rw [List.foldlM_cons, List.flatMap_cons, List.foldlM_append]
    dsimp only
    rw [hrow]
    congr 1
    funext state
    exact ih state

/-- **The grid of a table packs its cells**, in a strip as wide as the widest row. -/
theorem foldl_placeTableCell_packs {entries : List TableEntry}
    (hrows : ∀ entry ∈ entries, entry.rowIndex < rowCount) :
    ∃ placed, (entries.foldl (fun result entry =>
      placeTableCell bound entry.rowIndex result entry.cellIndex entry.cell)
      { rowCount := rowCount, occupancy := List.replicate rowCount [] }).PacksAs rowCount bound entries placed := by
  induction entries using List.reverseRecOn with
  | nil => exact ⟨[], Packing.Packs.nil, rfl, rfl, Shows.empty rowCount bound⟩
  | append_singleton entries entry ih =>
    obtain ⟨placed, hpacks⟩ := ih fun other hother => hrows other (List.mem_append_left _ hother)
    rw [List.foldl_append]
    exact placeTableCell_packs hpacks (hrows entry (List.mem_append_right _ (List.mem_singleton_self _)))

/-- The measurement of some cells. -/
def measureEntries (rowCount bound : ℕ) (entries : List TableEntry) : Option TableGridOccupancy :=
  entries.foldlM (fun occupancy entry => measureTableCell rowCount bound entry.rowIndex occupancy entry.cell)
    (List.replicate rowCount [])

/-- Where the measurement goes through, the packing is whole, and the marks show it. -/
theorem whole_of_measureEntries {entries : List TableEntry} (hrows : ∀ entry ∈ entries, entry.rowIndex < rowCount)
    (h : measureEntries rowCount bound entries = some occupancy) :
    ∃ placed, Packing.Packs (TableEntry.shape rowCount) bound entries placed ∧
      Packing.Whole (TableEntry.shape rowCount) bound entries placed ∧ Shows rowCount bound occupancy placed := by
  induction entries using List.reverseRecOn generalizing occupancy with
  | nil =>
    obtain rfl := Option.some.inj h
    exact ⟨[], Packing.Packs.nil, ⟨rfl, by simp⟩, Shows.empty rowCount bound⟩
  | append_singleton entries entry ih =>
    rw [measureEntries, List.foldlM_append, Option.bind_eq_bind, Option.bind_eq_some_iff] at h
    obtain ⟨before, hbefore, hlast⟩ := h
    obtain ⟨placed, hpacks, hwhole, hshows⟩ :=
      ih (fun other hother => hrows other (List.mem_append_left _ hother)) hbefore
    have hrow := hrows entry (List.mem_append_right _ (List.mem_singleton_self _))
    rw [List.foldlM_cons, Option.bind_eq_bind, Option.bind_eq_some_iff] at hlast
    obtain ⟨marked, hcell, hnil⟩ := hlast
    obtain rfl : marked = occupancy := Option.some.inj hnil
    obtain ⟨column, hfirst, hfits, rfl⟩ := (measureTableCell_eq_some_iff hshows hrow marked).mp hcell
    refine ⟨placed ++ [(entry, column)], hpacks.place hfirst, ⟨?_, ?_⟩, hshows.mark hrow hfirst.inside⟩
    · rw [List.map_append, hwhole.all]
      rfl
    · intro p hp
      rcases List.mem_append.mp hp with hp | hp
      · exact hwhole.uncut p hp
      · obtain rfl := List.mem_singleton.mp hp
        exact hfits

/-- The measurement goes through where the packing is whole. -/
theorem measureEntries_of_whole {entries : List TableEntry} (hrows : ∀ entry ∈ entries, entry.rowIndex < rowCount)
    (hpacks : Packing.Packs (TableEntry.shape rowCount) bound entries placed)
    (hwhole : Packing.Whole (TableEntry.shape rowCount) bound entries placed) :
    ∃ occupancy, measureEntries rowCount bound entries = some occupancy := by
  induction hpacks with
  | nil => exact ⟨_, rfl⟩
  | @place entries placed entry column before first ih =>
    have hothers : ∀ other ∈ entries, other.rowIndex < rowCount :=
      fun other hother => hrows other (List.mem_append_left _ hother)
    have hrow := hrows entry (List.mem_append_right _ (List.mem_singleton_self _))
    obtain ⟨occupancy, hmeasured⟩ := ih hothers hwhole.before
    obtain ⟨placed', hpacks', -, hshows⟩ := whole_of_measureEntries hothers hmeasured
    obtain rfl := hpacks'.unique before
    have hfits : column + (entry.shape rowCount).width ≤ bound := hwhole.uncut (entry, column) (by simp)
    have hcell := (measureTableCell_eq_some_iff hshows hrow _).mpr ⟨column, first, hfits, rfl⟩
    rw [measureEntries] at hmeasured
    rw [measureEntries, List.foldlM_append, hmeasured, Option.bind_eq_bind, Option.bind_some, List.foldlM_cons, hcell]
    exact ⟨_, rfl⟩
  | leave before none ih => exact absurd hwhole before.not_whole_of_leave

/-! ### The widest row -/

lemma tableRowColumns_spec {row : TableRow} {columns : ℕ} (h : tableRowColumns row = some columns) :
    columns ≤ unlimited ∧ ∀ cell ∈ row.cells, normalizeTableSpan cell.colspan ≤ columns := by
  suffices hfold : ∀ (cells : List TableCell) (start : ℕ), start ≤ unlimited →
      cells.foldlM (fun (columns : ℕ) cell =>
        if columns + normalizeTableSpan cell.colspan ≤ unlimited then
          some (columns + normalizeTableSpan cell.colspan)
        else none) start = some columns →
      (start ≤ columns ∧ columns ≤ unlimited) ∧
        ∀ cell ∈ cells, normalizeTableSpan cell.colspan ≤ columns by
    obtain ⟨⟨-, hlimit⟩, hcells⟩ := hfold row.cells 0 (Nat.zero_le _) h
    exact ⟨hlimit, hcells⟩
  intro cells
  induction cells with
  | nil =>
    intro start hstart h
    obtain rfl := Option.some.inj h
    exact ⟨⟨Nat.le_refl _, hstart⟩, by simp⟩
  | cons cell rest ih =>
    intro start hstart h
    rw [List.foldlM_cons, Option.bind_eq_bind, Option.bind_eq_some_iff] at h
    obtain ⟨sum, hsum, hrest⟩ := h
    split at hsum
    · obtain rfl := Option.some.inj hsum
      obtain ⟨⟨hgrows, hlimit⟩, hcells⟩ := ih _ (by omega) hrest
      refine ⟨⟨by omega, hlimit⟩, ?_⟩
      rintro other (_ | ⟨_, hother⟩)
      · omega
      · exact hcells other hother
    · cases hsum

lemma tableMaxColumns_spec {rows : List TableRow} {columns : ℕ} (h : tableMaxColumns rows = some columns) :
    columns ≤ unlimited ∧ ∀ entry ∈ tableEntries rows, normalizeTableSpan entry.cell.colspan ≤ columns := by
  suffices hfold : ∀ (rest : List TableRow) (start : ℕ), start ≤ unlimited →
      rest.foldlM (fun result row => (tableRowColumns row).map (max result)) start = some columns →
      (start ≤ columns ∧ columns ≤ unlimited) ∧
        ∀ row ∈ rest, ∀ cell ∈ row.cells, normalizeTableSpan cell.colspan ≤ columns by
    obtain ⟨⟨-, hlimit⟩, hcells⟩ := hfold rows 0 (Nat.zero_le _) h
    refine ⟨hlimit, ?_⟩
    intro entry hentry
    rw [mem_tableEntries, cellAt, Option.bind_eq_some_iff] at hentry
    obtain ⟨row, hrow, hcell⟩ := hentry
    exact hcells row (List.mem_of_getElem? hrow) entry.cell (List.mem_of_getElem? hcell)
  intro rest
  induction rest with
  | nil =>
    intro start hstart h
    obtain rfl := Option.some.inj h
    exact ⟨⟨Nat.le_refl _, hstart⟩, by simp⟩
  | cons row rest ih =>
    intro start hstart h
    rw [List.foldlM_cons, Option.bind_eq_bind, Option.bind_eq_some_iff] at h
    obtain ⟨widest, hwidest, hrest⟩ := h
    obtain ⟨width, hwidth, rfl⟩ := Option.map_eq_some_iff.mp hwidest
    obtain ⟨hlimit, hcells⟩ := tableRowColumns_spec hwidth
    obtain ⟨⟨hgrows, hlimit'⟩, hothers⟩ := ih _ (by omega) hrest
    refine ⟨⟨by omega, hlimit'⟩, ?_⟩
    rintro other (_ | ⟨_, hother⟩) cell hcell
    · have hcell' := hcells cell hcell
      omega
    · exact hothers other hother cell hcell

/-- **The grid that the editor builds** packs the cells of the table. -/
theorem buildTableGrid_packs {rows : List TableRow} {grid : TableGrid} (h : buildTableGrid rows = some grid) :
    ∃ maxColumns placed, tableMaxColumns rows = some maxColumns ∧
      grid.PacksAs rows.length maxColumns (tableEntries rows) placed ∧
      grid.columnCount = tableGridColumnCount grid.occupancy := by
  rw [buildTableGrid, Option.bind_eq_bind, Option.bind_eq_some_iff] at h
  obtain ⟨maxColumns, hmax, h⟩ := h
  dsimp only at h
  rw [foldl_tableEntries rows (fun rowIndex result cellIndex cell =>
    placeTableCell maxColumns rowIndex result cellIndex cell)] at h
  refine ⟨maxColumns, ?_⟩
  split at h
  · rename_i hempty
    obtain rfl := Option.some.inj h
    have hnone : tableEntries rows = [] := by
      rw [List.eq_nil_iff_forall_not_mem]
      intro entry hentry
      have hrow := rowIndex_lt_of_mem hentry
      have hwidth := (tableMaxColumns_spec hmax).2 entry hentry
      have hpos := normalizeTableSpan_pos entry.cell.colspan
      omega
    rw [hnone]
    refine ⟨[], hmax, ⟨Packing.Packs.nil, rfl, rfl, Shows.empty _ _⟩, ?_⟩
    have hcount := (tableGridColumnCount_le_iff (List.replicate rows.length []) 0).mpr (by simp [List.mem_replicate])
    exact (Nat.le_zero.mp hcount).symm
  · obtain rfl := Option.some.inj h
    have hrows : ∀ entry ∈ tableEntries rows, entry.rowIndex < rows.length := fun _ => rowIndex_lt_of_mem
    obtain ⟨placed, hpacks⟩ : ∃ placed, TableGrid.PacksAs rows.length maxColumns _ (tableEntries rows) placed :=
      foldl_placeTableCell_packs hrows
    exact ⟨placed, hmax, ⟨hpacks.packs, hpacks.cells_eq, hpacks.rowCount_eq, hpacks.shows⟩, rfl⟩

/-- The measured number of columns, by the measurement of the entries. -/
lemma effectiveTableColumns_eq (rows : List TableRow) {maxColumns : ℕ} (hpos : 0 < maxColumns) :
    effectiveTableColumns rows maxColumns =
      ((measureEntries rows.length maxColumns (tableEntries rows)).map tableGridColumnCount).getD maxColumns := by
  rw [effectiveTableColumns, measureEntries]
  by_cases hempty : rows = []
  · subst hempty
    rfl
  · rw [if_neg (by simp [hempty]; omega), foldlM_tableEntries rows (measureTableCell rows.length maxColumns)]
    rcases List.foldlM _ _ (tableEntries rows) with _ | occupancy
    · rfl
    · rfl

/-! ### Where the cells stand -/

/-- The slots of a placed cell. -/
def TableGridCellReference.slots (ref : TableGridCellReference) : Set (ℕ × ℕ) :=
  {slot | (ref.rowFrom ≤ slot.1 ∧ slot.1 < ref.rowTill) ∧ (ref.columnFrom ≤ slot.2 ∧ slot.2 < ref.columnTill)}

/-- A placed cell comes before another one in the table. -/
def TableGridCellReference.Before (ref : TableGridCellReference) (rowIndex cellIndex : ℕ) : Prop :=
  ref.rowIndex < rowIndex ∨ (ref.rowIndex = rowIndex ∧ ref.cellIndex < cellIndex)

/-- The rows that a cell of a table spans. -/
def rowsOf (rows : List TableRow) (rowIndex : ℕ) (cell : TableCell) : ℕ :=
  min (normalizeTableSpan cell.rowspan) (rows.length - rowIndex)

/-- **How a grid places cells**: the cells that are placed are cells of the table, each once and in its own row, with
as many rows as it spans inside the table and as many columns as it spans inside the bound; they stand inside the
grid, cover the marked slots and no slot twice; each takes the first column with room, and one is left out only if
there is none; and a cell never stands left of one that is no wider and no taller. -/
structure TableGrid.Sound (rows : List TableRow) (maxColumns : ℕ) (grid : TableGrid) : Prop where
  rowCount_eq : grid.rowCount = rows.length
  own : ∀ ref ∈ grid.cells, ∃ cell, cellAt rows ref.rowIndex ref.cellIndex = some cell ∧
    ref.rowFrom = ref.rowIndex ∧ ref.rowTill = ref.rowFrom + rowsOf rows ref.rowIndex cell ∧
    ref.columnFrom < maxColumns ∧
    ref.columnTill = ref.columnFrom + min (normalizeTableSpan cell.colspan) (maxColumns - ref.columnFrom)
  once : grid.cells.Pairwise fun ref other => ref.Before other.rowIndex other.cellIndex
  disjoint : grid.cells.Pairwise fun ref other => Disjoint ref.slots other.slots
  inside : ∀ ref ∈ grid.cells, ref.rowTill ≤ grid.rowCount ∧ ref.columnTill ≤ grid.columnCount
  marked : ∀ r c, occupied grid.occupancy r c = true ↔ ∃ ref ∈ grid.cells, (r, c) ∈ ref.slots
  first : ∀ rowIndex cellIndex cell, cellAt rows rowIndex cellIndex = some cell → ∀ column < maxColumns,
    (∀ ref ∈ grid.cells, ref.rowIndex = rowIndex → ref.cellIndex = cellIndex → column < ref.columnFrom) →
    ∃ ref ∈ grid.cells, ref.Before rowIndex cellIndex ∧ ∃ r c, (r, c) ∈ ref.slots ∧
      (rowIndex ≤ r ∧ r < rowIndex + rowsOf rows rowIndex cell) ∧
      (column ≤ c ∧ c < column + min (normalizeTableSpan cell.colspan) (maxColumns - column))
  ordered : grid.cells.Pairwise fun ref other => ref.rowIndex = other.rowIndex →
    ∀ cell cell', cellAt rows ref.rowIndex ref.cellIndex = some cell →
      cellAt rows other.rowIndex other.cellIndex = some cell' →
      rowsOf rows ref.rowIndex cell ≤ rowsOf rows other.rowIndex cell' →
      normalizeTableSpan cell.colspan ≤ normalizeTableSpan cell'.colspan → ref.columnFrom < other.columnFrom

/-- Every cell of the table is placed, with all the columns it spans. -/
def TableGrid.Complete (rows : List TableRow) (grid : TableGrid) : Prop :=
  ∀ rowIndex cellIndex cell, cellAt rows rowIndex cellIndex = some cell →
    ∃ ref ∈ grid.cells, (ref.rowIndex = rowIndex ∧ ref.cellIndex = cellIndex) ∧
      ref.columnTill = ref.columnFrom + normalizeTableSpan cell.colspan

section Packed

variable {rows : List TableRow} {maxColumns : ℕ} {grid : TableGrid}

/-- The height of the piece that a cell is. -/
lemma height_eq_rowsOf {entry : TableEntry} (h : entry ∈ tableEntries rows) :
    (entry.shape rows.length).height = rowsOf rows entry.rowIndex entry.cell := by
  have hrow := rowIndex_lt_of_mem h
  rw [(height_of_lt hrow).1, clampTableRowspan, if_neg (Nat.not_le.mpr hrow), rowsOf]

/-- A placed piece is a cell of the table. -/
lemma TableGrid.PacksAs.mem_entries (h : grid.PacksAs rows.length maxColumns (tableEntries rows) placed)
    {p : TableEntry × ℕ} (hp : p ∈ placed) : p.1 ∈ tableEntries rows :=
  h.packs.sublist.subset (List.mem_map_of_mem hp)

/-- The cells of a grid that packs the cells of a table stand as they should. -/
theorem TableGrid.PacksAs.sound (h : grid.PacksAs rows.length maxColumns (tableEntries rows) placed)
    (hcount : grid.columnCount = tableGridColumnCount grid.occupancy) : grid.Sound rows maxColumns := by
  refine ⟨h.rowCount_eq, ?_, ?_, ?_, ?_, ?_, ?_, ?_⟩
  · intro ref href
    rw [h.cells_eq, List.mem_map] at href
    obtain ⟨p, hp, rfl⟩ := href
    have hmem := h.mem_entries hp
    refine ⟨p.1.cell, mem_tableEntries.mp hmem, rfl, ?_, h.packs.inside hp, rfl⟩
    exact congrArg (p.1.rowIndex + ·) (height_eq_rowsOf hmem)
  · rw [h.cells_eq, List.pairwise_map]
    have hpairs := (pairwise_tableEntries rows).sublist h.packs.sublist
    rw [List.pairwise_map] at hpairs
    exact hpairs
  · rw [h.cells_eq, List.pairwise_map]
    exact h.packs.pairwise_disjoint
  · intro ref href
    rw [h.cells_eq, List.mem_map] at href
    obtain ⟨p, hp, rfl⟩ := href
    constructor
    · rw [h.rowCount_eq]
      exact (height_of_lt (rowIndex_lt_of_mem (h.mem_entries hp))).2
    · rw [hcount]
      exact (h.shows.columns_iff _).mp (Nat.le_refl _) p hp
  · intro r c
    rw [h.shows.occupied_iff, h.cells_eq]
    constructor
    · rintro ⟨p, hp, hslot⟩
      exact ⟨_, List.mem_map_of_mem hp, hslot⟩
    · rintro ⟨ref, href, hslot⟩
      obtain ⟨p, hp, rfl⟩ := List.mem_map.mp href
      exact ⟨p, hp, hslot⟩
  · intro rowIndex cellIndex cell hcell column hcolumn hown
    have hmem : (⟨rowIndex, cellIndex, cell⟩ : TableEntry) ∈ tableEntries rows := mem_tableEntries.mpr hcell
    obtain ⟨earlier, later, hentries⟩ := List.append_of_mem hmem
    have hpacks := h.packs
    have hpairs := pairwise_tableEntries rows
    rw [hentries] at hpacks hpairs
    obtain ⟨before, after, rfl, hsubset, hblocked⟩ := hpacks.blocked
    have hroom := hblocked column hcolumn fun own hp =>
      hown _ (h.cells_eq ▸ List.mem_map_of_mem hp) rfl rfl
    rw [Packing.Room, Set.not_disjoint_iff] at hroom
    obtain ⟨⟨r, c⟩, ⟨hrows, hcolumns⟩, p, hp, hslot⟩ := hroom
    refine ⟨reference rows.length maxColumns p, ?_, ?_, r, c, hslot, ?_, hcolumns⟩
    · rw [h.cells_eq]
      exact List.mem_map_of_mem (List.mem_append_left _ hp)
    · exact (List.pairwise_append.mp hpairs).2.2 p.1 (hsubset (List.mem_map_of_mem hp)) _
        (List.mem_cons_self ..)
    · rw [height_eq_rowsOf hmem] at hrows
      exact hrows
  · rw [h.cells_eq, List.pairwise_map]
    refine h.packs.ordered.imp_of_mem ?_
    intro p q hp hq hordered hrow cell cell' hcell hcell' hheight hwidth
    have hp' := h.mem_entries hp
    have hq' := h.mem_entries hq
    obtain rfl := Option.some.inj (hcell.symm.trans (mem_tableEntries.mp hp'))
    obtain rfl := Option.some.inj (hcell'.symm.trans (mem_tableEntries.mp hq'))
    refine hordered hrow ?_ hwidth
    rw [height_eq_rowsOf hp', height_eq_rowsOf hq']
    exact hheight

/-- A grid is complete exactly where its packing is whole. -/
theorem TableGrid.PacksAs.complete_iff (h : grid.PacksAs rows.length maxColumns (tableEntries rows) placed) :
    grid.Complete rows ↔ Packing.Whole (TableEntry.shape rows.length) maxColumns (tableEntries rows) placed := by
  constructor
  · intro hcomplete
    have hplaced : ∀ entry ∈ tableEntries rows, ∃ p ∈ placed, p.1 = entry ∧
        Packing.cut maxColumns (entry.shape rows.length) p.2 = (entry.shape rows.length).width := by
      intro entry hentry
      obtain ⟨ref, href, ⟨hrow, hcell⟩, htill⟩ := hcomplete _ _ _ (mem_tableEntries.mp hentry)
      rw [h.cells_eq, List.mem_map] at href
      obtain ⟨p, hp, rfl⟩ := href
      obtain rfl : p.1 = entry := eq_of_mem_tableEntries (h.mem_entries hp) hentry hrow hcell
      exact ⟨p, hp, rfl, Nat.add_left_cancel htill⟩
    have hall : placed.map Prod.fst = tableEntries rows := by
      refine h.packs.sublist.eq_of_length_le ?_
      refine (List.subperm_of_subset (nodup_tableEntries rows) ?_).length_le
      intro entry hentry
      obtain ⟨p, hp, rfl, -⟩ := hplaced entry hentry
      exact List.mem_map_of_mem hp
    refine ⟨hall, ?_⟩
    intro p hp
    obtain ⟨q, hq, hsame, hcut⟩ := hplaced p.1 (h.mem_entries hp)
    have hnodup : (placed.map Prod.fst).Nodup := hall ▸ nodup_tableEntries rows
    obtain rfl := List.inj_on_of_nodup_map hnodup hq hp hsame
    have hinside := h.packs.inside hp
    rw [Packing.cut] at hcut
    omega
  · intro hwhole rowIndex cellIndex cell hcell
    have hmem : (⟨rowIndex, cellIndex, cell⟩ : TableEntry) ∈ tableEntries rows := mem_tableEntries.mpr hcell
    rw [← hwhole.all, List.mem_map] at hmem
    obtain ⟨p, hp, hentry⟩ := hmem
    have huncut := hwhole.uncut p hp
    refine ⟨reference rows.length maxColumns p, h.cells_eq ▸ List.mem_map_of_mem hp, ?_, ?_⟩
    · rw [reference, hentry]
      exact ⟨rfl, rfl⟩
    · have hwidth : (p.1.shape rows.length).width = normalizeTableSpan cell.colspan := by rw [hentry]; rfl
      simp only [reference, Packing.cut]
      omega

/-- A complete grid has as many columns as are measured without a limit. -/
theorem TableGrid.PacksAs.columnCount_of_complete
    (h : grid.PacksAs rows.length maxColumns (tableEntries rows) placed) (hmax : maxColumns ≤ unlimited)
    (hcomplete : grid.Complete rows) :
    tableGridColumnCount grid.occupancy = effectiveTableColumns rows unlimited ∧
      tableGridColumnCount grid.occupancy ≤ maxColumns := by
  have hwhole := h.complete_iff.mp hcomplete
  have hwide : ∀ p ∈ placed, p.2 + (p.1.shape rows.length).width ≤ unlimited :=
    fun p hp => (hwhole.uncut p hp).trans hmax
  have hcuts : ∀ limit, (∀ p ∈ placed, p.2 + Packing.cut maxColumns (p.1.shape rows.length) p.2 ≤ limit) ↔
      ∀ p ∈ placed, p.2 + Packing.cut unlimited (p.1.shape rows.length) p.2 ≤ limit := by
    intro limit
    refine forall₂_congr fun p hp => ?_
    have huncut := hwhole.uncut p hp
    have huncut' := hwide p hp
    simp only [Packing.cut]
    omega
  have hrows : ∀ entry ∈ tableEntries rows, entry.rowIndex < rows.length := fun _ => rowIndex_lt_of_mem
  have hpacks := h.packs.narrow hwhole hwide
  obtain ⟨occupancy, hmeasured⟩ := measureEntries_of_whole hrows hpacks ⟨hwhole.all, hwide⟩
  obtain ⟨placed', hpacks', -, hshows⟩ := whole_of_measureEntries hrows hmeasured
  obtain rfl := hpacks'.unique hpacks
  rw [effectiveTableColumns_eq rows (by decide), hmeasured]
  constructor
  · refine eq_of_forall_ge_iff fun limit => ?_
    rw [h.shows.columns_iff, hcuts, ← hshows.columns_iff]
    rfl
  · rw [h.shows.columns_iff]
    intro p hp
    have hinside := h.packs.inside hp
    rw [Packing.cut]
    omega

/-- Where the measurement stays within the bound of the grid, the grid is complete. -/
theorem TableGrid.PacksAs.complete_of_columns
    (h : grid.PacksAs rows.length maxColumns (tableEntries rows) placed)
    (hlimit : effectiveTableColumns rows unlimited < unlimited)
    (hmax : effectiveTableColumns rows unlimited ≤ maxColumns) : grid.Complete rows := by
  have hrows : ∀ entry ∈ tableEntries rows, entry.rowIndex < rows.length := fun _ => rowIndex_lt_of_mem
  rw [effectiveTableColumns_eq rows (by decide)] at hlimit hmax
  rcases hmeasured : measureEntries rows.length unlimited (tableEntries rows) with _ | occupancy
  · rw [hmeasured] at hlimit
    exact absurd hlimit (Nat.lt_irrefl _)
  · rw [hmeasured] at hmax
    obtain ⟨placed', hpacks, hwhole, hshows⟩ := whole_of_measureEntries hrows hmeasured
    have hfits : ∀ p ∈ placed', p.2 + (p.1.shape rows.length).width ≤ maxColumns := by
      intro p hp
      have hcolumns := (hshows.columns_iff maxColumns).mp hmax p hp
      have huncut := hwhole.uncut p hp
      rw [Packing.cut] at hcolumns
      omega
    obtain rfl := h.packs.unique (hpacks.narrow hwhole hfits)
    exact h.complete_iff.mpr ⟨hwhole.all, hfits⟩

end Packed

/-- **Where the cells of a table stand.** The editor bounds the columns by the widest row. It places the cells of a
table soundly inside that bound. If every cell is placed with all its columns, the grid has as many columns as are
measured for the limits of a message; and where fewer than the largest number are measured, every cell is so placed
exactly if the measured columns are no more than the widest row has. -/
theorem tableGrid_of_rows {rows : List TableRow} {grid : TableGrid} (h : buildTableGrid rows = some grid) :
    ∃ maxColumns, tableMaxColumns rows = some maxColumns ∧ grid.Sound rows maxColumns ∧
      (grid.Complete rows → grid.columnCount = effectiveTableColumns rows unlimited) ∧
      (effectiveTableColumns rows unlimited < unlimited →
        (grid.Complete rows ↔ effectiveTableColumns rows unlimited ≤ maxColumns)) := by
  obtain ⟨maxColumns, placed, hmax, hpacks, hcount⟩ := buildTableGrid_packs h
  have hlimit := (tableMaxColumns_spec hmax).1
  refine ⟨maxColumns, hmax, hpacks.sound hcount, ?_, ?_⟩
  · intro hcomplete
    rw [hcount]
    exact (hpacks.columnCount_of_complete hlimit hcomplete).1
  · intro hmeasured
    constructor
    · intro hcomplete
      obtain ⟨hcolumns, hinside⟩ := hpacks.columnCount_of_complete hlimit hcomplete
      omega
    · exact hpacks.complete_of_columns hmeasured

/-- A table whose second row has a cell below a cell of two rows. -/
def spannedTable : List TableRow := [{ cells := [{ rowspan := 2 }] }, { cells := [{}] }]

/-- A table whose second row leaves a gap below the first column. -/
def gappedTable : List TableRow :=
  [{ cells := [{}, { rowspan := 2 }, {}, {}] }, { cells := [{ colspan := 2 }, {}] }]

/-- The cells of the second table all find room. -/
theorem tableGrid_of_gappedTable : ∃ grid, buildTableGrid gappedTable = some grid ∧ grid.Sound gappedTable 4 ∧
    grid.Complete gappedTable ∧ grid.columnCount = 4 := by
  have hmax : tableMaxColumns gappedTable = some 4 := by decide
  have hcolumns : effectiveTableColumns gappedTable unlimited = 4 := by decide
  obtain ⟨grid, hgrid⟩ : ∃ grid, buildTableGrid gappedTable = some grid :=
    Option.isSome_iff_exists.mp (by decide)
  obtain ⟨maxColumns, hmax', hsound, hcount, hcomplete⟩ := tableGrid_of_rows hgrid
  obtain rfl : 4 = maxColumns := Option.some.inj (hmax.symm.trans hmax')
  have hplaced : grid.Complete gappedTable := (hcomplete (by rw [hcolumns]; decide)).mpr hcolumns.le
  exact ⟨grid, hgrid, hsound, hplaced, (hcount hplaced).trans hcolumns⟩

/-- In the first table a cell is lost, and the grid has one column where two are measured; in the second table the
second cell of the second row stands left of the first one. -/
theorem tableGrid_of_spannedTable :
    (∃ grid, buildTableGrid spannedTable = some grid ∧ ¬ grid.Complete spannedTable ∧
      grid.columnCount = 1 ∧ effectiveTableColumns spannedTable unlimited = 2) ∧
    ∃ grid, buildTableGrid gappedTable = some grid ∧ ∃ ref ∈ grid.cells, ∃ other ∈ grid.cells,
      ref.rowIndex = other.rowIndex ∧ ref.cellIndex < other.cellIndex ∧ other.columnFrom < ref.columnFrom := by
  constructor
  · refine ⟨{ cells := [⟨0, 0, 0, 2, 0, 1⟩], occupancy := [[true], [true]], rowCount := 2, columnCount := 1 },
      by decide, ?_, rfl, by decide⟩
    intro hcomplete
    obtain ⟨ref, href, ⟨hrow, -⟩, -⟩ := hcomplete 1 0 {} rfl
    obtain rfl := List.mem_singleton.mp href
    cases hrow
  · obtain ⟨grid, hgrid⟩ : ∃ grid, buildTableGrid gappedTable = some grid :=
      Option.isSome_iff_exists.mp (by decide)
    have hcells : (buildTableGrid gappedTable).map (fun grid => grid.cells.drop 4) =
        some [⟨1, 0, 1, 2, 2, 4⟩, ⟨1, 1, 1, 2, 0, 1⟩] := by decide
    rw [hgrid, Option.map_some] at hcells
    have hlast := Option.some.inj hcells
    have hmem : ∀ ref ∈ grid.cells.drop 4, ref ∈ grid.cells := fun _ => List.mem_of_mem_drop
    rw [hlast] at hmem
    exact ⟨grid, hgrid, _, hmem ⟨1, 0, 1, 2, 2, 4⟩ (by simp), _, hmem ⟨1, 1, 1, 2, 0, 1⟩ (by simp), rfl,
      by decide, by decide⟩

end RichPage
