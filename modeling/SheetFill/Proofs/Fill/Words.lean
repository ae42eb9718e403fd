import SheetFill.Proofs.Cell.Bounds
import SheetFill.Proofs.Fill.Accounting
import SheetFill.Proofs.Number.Word
import SheetFill.Proofs.Tree.Size

/-!
# Filling a range in words

A fill counts its way through the range: it measures the range, adds offsets to the first cell, divides the number of an
item by the number of columns, and subtracts what has room from what there is. `Workbook.fill?` runs these loops in words,
where an operation without a true result stops everything. The measure alone can have none: a range with all numbers of
32 bits for its rows or columns has one more of them than there are words, and counts as empty where nothing is
stopped. Every other operation stands behind the comparison that makes it exact, as long as the data can be counted
at all.

Main statement: the loops in words are the fill, for every range whose measure they have.
-/

namespace SheetFill

/-- Every datum of a value is a node of it. -/
theorem Tree.dataCount_le_size (value : Tree) : value.dataCount ≤ value.size := by
  have hrow : ∀ row : Tree, row.rowCells.length ≤ row.size := by
    intro row
    cases row with
    | list cells => exact Nat.le_succ_of_le (length_le_sizeItems cells)
    | null | boolean | number | text | record => exact size_pos _
  have hrows : ∀ rows, dataOfRows rows ≤ sizeItems rows := by
    intro rows
    induction rows with
    | nil => exact Nat.le_refl _
    | cons row rest ih => exact Nat.add_le_add (hrow row) ih
  cases value with
  | list items =>
    rw [dataCount, size]
    split
    · exact Nat.le_succ_of_le (hrows items)
    · exact Nat.le_succ_of_le (length_le_sizeItems items)
  | null | boolean | number | text | record => exact size_pos _

namespace Coordinate

/-- Row and column are numbers of 32 bits. -/
def InWords (c : Coordinate) : Prop :=
  c.row < 2 ^ 32 ∧ c.col < 2 ^ 32

/-- A place of a sheet is far below the largest numbers. -/
theorem OnSheet.inWords {c : Coordinate} (h : c.OnSheet) : c.InWords :=
  ⟨Nat.lt_of_le_of_lt h.1 (by decide), Nat.lt_of_le_of_lt h.2 (by decide)⟩

end Coordinate

namespace CellRange

/-- How many rows the range has, in words. -/
def rows? (range : CellRange) : Option Nat := do
  let below ← Word.sub? range.last.row range.first.row
  Word.add? 32 below 1

/-- How many columns the range has, in words. -/
def cols? (range : CellRange) : Option Nat := do
  let behind ← Word.sub? range.last.col range.first.col
  Word.add? 32 behind 1

/-- The cell that is `r` rows and `c` columns from the anchor, in words. -/
def offset? (range : CellRange) (r c : Nat) : Option Coordinate := do
  let below ← Word.fit? 32 r
  let row ← Word.add? 32 range.first.row below
  let behind ← Word.fit? 32 c
  let col ← Word.add? 32 range.first.col behind
  some ⟨row, col⟩

variable {range : CellRange}

/-- The count from one number of 32 bits to another is no word exactly if it starts again at zero. -/
theorem count?_eq {first last : Nat} (hle : first ≤ last) (hlast : last < 2 ^ 32) :
    ((Word.sub? last first).bind fun behind => Word.add? 32 behind 1) =
      if wrap32 (last - first + 1) = 0 then none else some (wrap32 (last - first + 1)) := by
  rw [Word.sub?_of_le hle, Option.bind_some, Word.add?, Word.fit?]
  split
  · next hfits => rw [wrap32_of_lt hfits, if_neg (Nat.succ_ne_zero _)]
  · next hfull =>
    have hall : last - first + 1 = 4294967296 := by omega
    rw [hall, if_pos (by decide)]

theorem rows?_eq (hlast : range.last.InWords) :
    range.rows? = if range.rows = 0 then none else some range.rows :=
  count?_eq range.row_le hlast.1

theorem cols?_eq (hlast : range.last.InWords) :
    range.cols? = if range.cols = 0 then none else some range.cols :=
  count?_eq range.col_le hlast.2

/-- A range of a sheet has rows and columns. -/
theorem counts_ne_zero (hlast : range.last.OnSheet) : range.rows ≠ 0 ∧ range.cols ≠ 0 := by
  obtain ⟨hrow, hcol⟩ := hlast
  simp only [maxRow, maxColumn, rows, cols, wrap32] at *
  omega

/-- The number of cells of a range fits. -/
theorem capacity?_eq (range : CellRange) :
    Word.mul? 64 range.rows range.cols = some (range.rows * range.cols) := by
  apply Word.mul?_of_lt
  calc range.rows * range.cols < 4294967296 * 4294967296 := Nat.mul_lt_mul'' (wrap32_lt _) (wrap32_lt _)
    _ = 2 ^ 64 := by decide

/-- The places of a range are reached within words. -/
theorem offset?_eq (hlast : range.last.InWords) {r c : Nat} (hr : r < range.rows) (hc : c < range.cols) :
    range.offset? r c = some (range.offset r c) := by
  obtain ⟨-, hrow, -, hcol⟩ := offset_mem hr hc
  have hrow' : range.first.row + r < 2 ^ 32 := Nat.lt_of_le_of_lt hrow hlast.1
  have hcol' : range.first.col + c < 2 ^ 32 := Nat.lt_of_le_of_lt hcol hlast.2
  simp only [offset?, Word.fit?_of_lt (Nat.lt_of_le_of_lt (Nat.le_add_left _ _) hrow'), Word.add?_of_lt hrow',
    Word.fit?_of_lt (Nat.lt_of_le_of_lt (Nat.le_add_left _ _) hcol'), Word.add?_of_lt hcol', Option.bind_eq_bind,
    Option.bind_some]
  rfl

/-- How many data of rows the range has no room for, if it has so many rows left. -/
def overflowBelow (range : CellRange) (room : Nat) (rows : List Tree) : Nat :=
  (rows.take room).foldr (fun row n => row.rowCells.length - range.cols + n) 0 +
    (rows.drop room).foldr (fun row n => row.rowCells.length + n) 0

@[simp] theorem overflowBelow_nil (room : Nat) : range.overflowBelow room [] = 0 := by
  simp [overflowBelow]

theorem overflowBelow_zero_cons (row : Tree) (rest : List Tree) :
    range.overflowBelow 0 (row :: rest) = row.rowCells.length + range.overflowBelow 0 rest := by
  simp [overflowBelow]

theorem overflowBelow_succ_cons (room : Nat) (row : Tree) (rest : List Tree) :
    range.overflowBelow (room + 1) (row :: rest) =
      row.rowCells.length - range.cols + range.overflowBelow room rest := by
  simp [overflowBelow, Nat.add_assoc]

end CellRange

namespace Workbook

section Loops

variable (i : Nat) (overwrite : Bool) (range : CellRange)

/-- Writes a datum and counts what became of it. -/
def record (c : Coordinate) (datum : Tree) (state : Workbook × FillCount) : Workbook × FillCount :=
  (state.1.write i overwrite c datum,
    { state.2 with tally := state.2.tally.count (state.1.outcome i overwrite c) })

/-- Counts data without room, in words. -/
def drop? (n : Nat) (state : Workbook × FillCount) : Option (Workbook × FillCount) := do
  let truncated ← Word.add? 64 state.2.truncated n
  some (state.1, { state.2 with truncated := truncated })

/-- Runs through a row of `length` data from column `c` on; past the last column the rest is counted at once. -/
def fillRow? (cols r length : Nat) : Nat → List Tree → Workbook × FillCount → Option (Workbook × FillCount)
  | _, [], state => some state
  | c, datum :: rest, state =>
    if cols ≤ c then do
      let dropped ← Word.sub? length cols
      drop? dropped state
    else do
      let target ← range.offset? r c
      fillRow? cols r length (c + 1) rest (record i overwrite target datum state)

/-- Runs through rows from row `r` on; past the last row every row is counted as a whole. -/
def fillRows? (rows cols : Nat) : Nat → List Tree → Workbook × FillCount → Option (Workbook × FillCount)
  | _, [], state => some state
  | r, row :: rest, state =>
    if rows ≤ r then do
      let state ← drop? row.rowCells.length state
      fillRows? rows cols (r + 1) rest state
    else do
      let state ← fillRow? i overwrite range cols r row.rowCells.length 0 row.rowCells state
      fillRows? rows cols (r + 1) rest state

/-- Runs through a list of `length` data from number `k` on; once the range is full the rest is counted at once. -/
def fillFlat? (capacity cols length : Nat) :
    Nat → List Tree → Workbook × FillCount → Option (Workbook × FillCount)
  | _, [], state => some state
  | k, datum :: rest, state =>
    if capacity ≤ k then do
      let dropped ← Word.sub? length capacity
      some (state.1, { state.2 with truncated := dropped })
    else do
      let r ← Word.div? k cols
      let c ← Word.mod? k cols
      let target ← range.offset? r c
      fillFlat? capacity cols length (k + 1) rest (record i overwrite target datum state)

end Loops

/-- Fills a range with a value, in words. -/
def fill? (workbook : Workbook) (i : Nat) (overwrite : Bool) (range : CellRange) (value : Tree) :
    Option (Workbook × FillCount) := do
  let rows ← range.rows?
  let cols ← range.cols?
  match value with
  | .list items =>
    if startsWithList items then fillRows? i overwrite range rows cols 0 items (workbook, ⟨.zero, 0⟩)
    else do
      let capacity ← Word.mul? 64 rows cols
      fillFlat? i overwrite range capacity cols items.length 0 items (workbook, ⟨.zero, 0⟩)
  | datum => some (record i overwrite range.first datum (workbook, ⟨.zero, 0⟩))

/-- The state after data were written and counted, and more were counted as having no room. -/
def afterData (i : Nat) (overwrite : Bool) (data : List (Coordinate × Tree)) (dropped : Nat)
    (state : Workbook × FillCount) : Workbook × FillCount :=
  let (workbook, tally) := writeAll i overwrite data (state.1, state.2.tally)
  (workbook, ⟨tally, state.2.truncated + dropped⟩)

section Loops

variable (i : Nat) (overwrite : Bool) {range : CellRange} (state : Workbook × FillCount)

/-- Data are written and counted one list after the other. -/
theorem afterData_append (first second : List (Coordinate × Tree)) (m n : Nat) :
    afterData i overwrite (first ++ second) (m + n) state =
      afterData i overwrite second n (afterData i overwrite first m state) := by
  simp only [afterData, writeAll_append, Nat.add_assoc]

theorem drop?_eq {n : Nat} (h : state.2.truncated + n < 2 ^ 64) :
    drop? n state = some (afterData i overwrite [] n state) := by
  rw [drop?, Word.add?_of_lt h]
  rfl

/-- The loop over a row writes the data that have a column, and counts the others. -/
theorem fillRow?_eq (hlast : range.last.InWords) {r c : Nat} (hr : r < range.rows) (hc : c ≤ range.cols)
    (data : List Tree) (hcount : state.2.truncated + (c + data.length - range.cols) < 2 ^ 64) :
    fillRow? i overwrite range range.cols r (c + data.length) c data state =
      some (afterData i overwrite
        (((data.take (range.cols - c)).zipIdx c).map fun (datum, c) => (range.offset r c, datum))
        (c + data.length - range.cols) state) := by
  induction data generalizing c state with
  | nil =>
    have hnone : c + ([] : List Tree).length - range.cols = 0 := Nat.sub_eq_zero_of_le hc
    rw [hnone, List.take_nil]
    rfl
  | cons datum rest ih =>
    rw [fillRow?]
    split
    · next hfull =>
      obtain rfl : c = range.cols := Nat.le_antisymm hc hfull
      rw [Word.sub?_of_le (Nat.le_add_right _ _), Nat.sub_self, List.take_zero]
      exact drop?_eq i overwrite state hcount
    · next hfree =>
      have hlength : c + (datum :: rest).length = c + 1 + rest.length := by
        rw [List.length_cons]
        omega
      have hroom : range.cols - c = range.cols - (c + 1) + 1 := by omega
      rw [hlength] at hcount ⊢
      rw [CellRange.offset?_eq hlast hr (Nat.lt_of_not_le hfree), hroom, List.take_succ_cons, List.zipIdx_cons,
        List.map_cons]
      exact ih _ (Nat.lt_of_not_le hfree) hcount

/-- The loop over rows writes the data that have a row and a column, and counts the others. -/
theorem fillRows?_eq (hlast : range.last.InWords) (r : Nat) {room : Nat} (hroom : room = range.rows - r)
    (rows : List Tree) (hcount : state.2.truncated + range.overflowBelow room rows < 2 ^ 64) :
    fillRows? i overwrite range range.rows range.cols r rows state =
      some (afterData i overwrite (((rows.take room).zipIdx r).flatMap fun (row, r) => range.assignRow row r)
        (range.overflowBelow room rows) state) := by
  induction rows generalizing state r room with
  | nil => simp [fillRows?, afterData, writeAll]
  | cons row rest ih =>
    rw [fillRows?]
    cases room with
    | zero =>
      rw [CellRange.overflowBelow_zero_cons, ← Nat.add_assoc] at hcount
      have hrest := ih (afterData i overwrite [] row.rowCells.length state) (r + 1) (by omega) hcount
      rw [if_pos (Nat.le_of_sub_eq_zero hroom.symm),
        drop?_eq i overwrite state (Nat.lt_of_le_of_lt (Nat.le_add_right _ _) hcount), Option.bind_eq_bind,
        Option.bind_some, hrest, ← afterData_append, CellRange.overflowBelow_zero_cons]
      rfl
    | succ room =>
      rw [CellRange.overflowBelow_succ_cons, ← Nat.add_assoc] at hcount
      have hr : r < range.rows := by omega
      have hrow := fillRow?_eq i overwrite state hlast hr (Nat.zero_le range.cols) row.rowCells (by omega)
      rw [Nat.zero_add] at hrow
      have hrest := ih
        (afterData i overwrite (range.assignRow row r) (row.rowCells.length - range.cols) state) (r + 1) (by omega)
        hcount
      rw [if_neg (Nat.not_le_of_lt hr), hrow, Option.bind_eq_bind, Option.bind_some]
      refine hrest.trans ?_
      rw [← afterData_append, List.take_succ_cons, List.zipIdx_cons, List.flatMap_cons,
        CellRange.overflowBelow_succ_cons]

/-- The loop over a list writes the data that have a cell, and counts the others. -/
theorem fillFlat?_eq (hlast : range.last.InWords) {k : Nat} (hk : k ≤ range.rows * range.cols) (data : List Tree)
    (hnone : state.2.truncated = 0) :
    fillFlat? i overwrite range (range.rows * range.cols) range.cols (k + data.length) k data state =
      some (afterData i overwrite
        (((data.take (range.rows * range.cols - k)).zipIdx k).map fun (datum, k) =>
          (range.offset (k / range.cols) (k % range.cols), datum))
        (k + data.length - range.rows * range.cols) state) := by
  induction data generalizing k state with
  | nil =>
    have hnone : k + ([] : List Tree).length - range.rows * range.cols = 0 := Nat.sub_eq_zero_of_le hk
    rw [hnone, List.take_nil]
    rfl
  | cons datum rest ih =>
    rw [fillFlat?]
    split
    · next hfull =>
      obtain rfl : k = range.rows * range.cols := Nat.le_antisymm hk hfull
      rw [Word.sub?_of_le (Nat.le_add_right _ _), Nat.sub_self, List.take_zero]
      simp [afterData, writeAll, hnone]
    · next hfree =>
      have hlength : k + (datum :: rest).length = k + 1 + rest.length := by
        rw [List.length_cons]
        omega
      have hroom : range.rows * range.cols - k = range.rows * range.cols - (k + 1) + 1 := by omega
      obtain ⟨hrow, hcol⟩ := CellRange.div_lt_rows_and_mod_lt_cols (Nat.lt_of_not_le hfree)
      have hcols : 0 < range.cols := Nat.zero_lt_of_lt hcol
      rw [hlength, Word.div?_of_pos hcols, Word.mod?_of_pos hcols, Option.bind_eq_bind, Option.bind_some,
        Option.bind_eq_bind, Option.bind_some, CellRange.offset?_eq hlast hrow hcol, hroom, List.take_succ_cons,
        List.zipIdx_cons, List.map_cons]
      exact ih _ (Nat.lt_of_not_le hfree) hnone

end Loops

/-- In words a fill comes to the same result if its range has rows and columns in words, and else stops before it
writes anything. The range may end at any number of 32 bits. -/
theorem fill?_eq (workbook : Workbook) (i : Nat) (overwrite : Bool) {range : CellRange} {value : Tree}
    (hlast : range.last.InWords) (hvalue : value.dataCount < 2 ^ 64) :
    workbook.fill? i overwrite range value =
      if range.rows = 0 ∨ range.cols = 0 then none else some (workbook.fill i overwrite range value) := by
  have hcount : range.overflow value < 2 ^ 64 := by
    have hoverflow := range.length_assign_add_overflow value
    omega
  rw [fill?, CellRange.rows?_eq hlast, CellRange.cols?_eq hlast]
  by_cases hrows : range.rows = 0
  · simp [hrows]
  by_cases hcols : range.cols = 0
  · simp [hcols]
  rw [if_neg hrows, if_neg hcols, if_neg (not_or.mpr ⟨hrows, hcols⟩)]
  cases value with
  | list items =>
    simp only [Option.bind_eq_bind, Option.bind_some, fill, CellRange.assign, CellRange.overflow] at hcount ⊢
    split
    · next hlists =>
      rw [if_pos hlists] at hcount
      refine (fillRows?_eq i overwrite _ hlast 0 rfl items (by rwa [Nat.zero_add])).trans ?_
      rw [afterData, Nat.zero_add]
      rfl
    · next hflat =>
      have hloop := fillFlat?_eq i overwrite (workbook, ⟨.zero, 0⟩) hlast (Nat.zero_le _) items rfl
      rw [Nat.zero_add] at hloop
      rw [range.capacity?_eq, Option.bind_some, hloop, afterData, Nat.zero_add]
      rfl
  | null | boolean | number | text | record => rfl

/-- A fill of a range of a sheet counts exactly. -/
theorem fill?_eq_some (workbook : Workbook) (i : Nat) (overwrite : Bool) {range : CellRange} {value : Tree}
    (hlast : range.last.OnSheet) (hvalue : value.dataCount < 2 ^ 64) :
    workbook.fill? i overwrite range value = some (workbook.fill i overwrite range value) := by
  obtain ⟨hrows, hcols⟩ := CellRange.counts_ne_zero hlast
  rw [fill?_eq workbook i overwrite hlast.inWords hvalue, if_neg (not_or.mpr ⟨hrows, hcols⟩)]

end Workbook

end SheetFill
