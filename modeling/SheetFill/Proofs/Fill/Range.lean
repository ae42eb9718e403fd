import Mathlib.Data.List.Basic
import SheetFill.Fill.Range

/-!
# Which cells a range gives to which data

A datum is assigned to a cell exactly when it stands at a place of the data for which the range has
room: a list of lists by row and column, any other list by its place in row-major order. So every
cell that is given something lies in the range.
-/

namespace SheetFill

/-- The places of a list up to a bound. -/
theorem mem_zipIdx_take_iff {α : Type} {l : List α} {bound i : Nat} {x : α} :
    (x, i) ∈ (l.take bound).zipIdx ↔ l[i]? = some x ∧ i < bound := by
  rw [List.mem_zipIdx_iff_getElem?, List.getElem?_take]
  by_cases h : i < bound <;> simp [h]

namespace CellRange

variable {range : CellRange} {c : Coordinate} {datum : Tree}

/-- Rows and columns within the range lead to its cells. -/
theorem offset_mem {row col : Nat} (hrow : row < range.rows) (hcol : col < range.cols) :
    range.offset row col ∈ range := by
  have hrows := Nat.lt_of_lt_of_le hrow (wrap32_le _)
  have hcols := Nat.lt_of_lt_of_le hcol (wrap32_le _)
  have hfirst := range.row_le
  have hfirst' := range.col_le
  change Mem range (range.offset row col)
  simp only [Mem, offset]
  omega

/-- Different places lead to different cells. -/
theorem offset_inj {row col otherRow otherCol : Nat} :
    range.offset row col = range.offset otherRow otherCol ↔ row = otherRow ∧ col = otherCol := by
  simp [offset]

/-- No rows give nothing to any cell. -/
theorem assignRows_nil (range : CellRange) : range.assignRows [] = [] := by
  rw [assignRows, List.take_nil, List.zipIdx_nil, List.flatMap_nil]

/-- A list without items gives nothing to any cell. -/
theorem assign_list_nil (range : CellRange) : range.assign (.list []) = [] := by
  change range.assignFlat [] = []
  rw [assignFlat, List.take_nil, List.zipIdx_nil, List.map_nil]

/-- What a row gives to which cells. -/
theorem mem_assignRow_iff {row : Tree} {r : Nat} :
    (c, datum) ∈ range.assignRow row r ↔
      ∃ col, row.rowCells[col]? = some datum ∧ col < range.cols ∧ c = range.offset r col := by
  simp only [assignRow, List.mem_map, Prod.exists, mem_zipIdx_take_iff, Prod.mk.injEq]
  constructor
  · rintro ⟨_, col, ⟨hdatum, hcol⟩, rfl, rfl⟩
    exact ⟨col, hdatum, hcol, rfl⟩
  · rintro ⟨col, hdatum, hcol, rfl⟩
    exact ⟨datum, col, ⟨hdatum, hcol⟩, rfl, rfl⟩

/-- What rows give to which cells. -/
theorem mem_assignRows_iff {rows : List Tree} :
    (c, datum) ∈ range.assignRows rows ↔
      ∃ r col row, rows[r]? = some row ∧ r < range.rows ∧ row.rowCells[col]? = some datum ∧
        col < range.cols ∧ c = range.offset r col := by
  simp only [assignRows, List.mem_flatMap, Prod.exists, mem_zipIdx_take_iff, mem_assignRow_iff]
  constructor
  · rintro ⟨row, r, ⟨hrow, hr⟩, col, hdatum, hcol, rfl⟩
    exact ⟨r, col, row, hrow, hr, hdatum, hcol, rfl⟩
  · rintro ⟨r, col, row, hrow, hr, hdatum, hcol, rfl⟩
    exact ⟨row, r, ⟨hrow, hr⟩, col, hdatum, hcol, rfl⟩

/-- What a list gives to which cells. -/
theorem mem_assignFlat_iff {items : List Tree} :
    (c, datum) ∈ range.assignFlat items ↔
      ∃ i, items[i]? = some datum ∧ i < range.rows * range.cols ∧
        c = range.offset (i / range.cols) (i % range.cols) := by
  simp only [assignFlat, List.mem_map, Prod.exists, mem_zipIdx_take_iff, Prod.mk.injEq]
  constructor
  · rintro ⟨_, i, ⟨hdatum, hi⟩, rfl, rfl⟩
    exact ⟨i, hdatum, hi, rfl⟩
  · rintro ⟨i, hdatum, hi, rfl⟩
    exact ⟨datum, i, ⟨hdatum, hi⟩, rfl, rfl⟩

/-- A place in a range leads to one of its rows and one of its columns. -/
theorem div_lt_rows_and_mod_lt_cols {i : Nat} (h : i < range.rows * range.cols) :
    i / range.cols < range.rows ∧ i % range.cols < range.cols := by
  have hcols : 0 < range.cols := Nat.pos_of_lt_mul_left h
  exact ⟨(Nat.div_lt_iff_lt_mul hcols).mpr h, Nat.mod_lt i hcols⟩

/-- Whatever the value, only cells of the range are given data. -/
theorem mem_of_mem_assign {value : Tree} (h : (c, datum) ∈ range.assign value) : c ∈ range := by
  unfold assign at h
  split at h
  · split at h
    · obtain ⟨r, col, row, -, hr, -, hcol, rfl⟩ := mem_assignRows_iff.mp h
      exact offset_mem hr hcol
    · obtain ⟨i, -, hi, rfl⟩ := mem_assignFlat_iff.mp h
      obtain ⟨hrow, hcol⟩ := div_lt_rows_and_mod_lt_cols hi
      exact offset_mem hrow hcol
  · cases List.mem_singleton.mp h
    exact range.anchor_mem

/-- A range with a row for every row and a column for every cell has room for all cells. -/
theorem overflowRows_eq_zero {rows : List Tree} (hrows : rows.length ≤ range.rows)
    (hcols : ∀ row ∈ rows, row.rowCells.length ≤ range.cols) : range.overflowRows rows = 0 := by
  rw [overflowRows, List.take_of_length_le hrows, List.drop_of_length_le hrows]
  clear hrows
  induction rows with
  | nil => rfl
  | cons row rest ih =>
    obtain ⟨hfirst, hrest⟩ := List.forall_mem_cons.mp hcols
    rw [List.foldr_cons, Nat.add_assoc, ih hrest, Nat.sub_eq_zero_of_le hfirst]

end CellRange

end SheetFill
