import Mathlib.Data.List.Basic
import SheetFill.Sheet.Basic

/-!
# Sparse rows

Cells may be stored as rows by their numbers, each with its cells by their columns. Then a row must go with its last cell,
and a row that moves down must find its new place free: rows are moved one by one, the last one first, so that what still
stands below a row is either already moved or will not be hit.

The laws describe every operation by the cell that is found at each coordinate afterwards. From them it follows that no
operation stores an empty cell or leaves a row without cells. Without such rows the last row is the last one that holds
a cell, and the cells row by row are all cells in row-major order.
-/

namespace SheetFill

open Std (TreeMap)

/-- Rows by their numbers, each with its cells by their columns. -/
abbrev SparseRows := TreeMap Nat (TreeMap Nat CellValue)

namespace SparseRows

/-- The cell at a coordinate. -/
def cell? (rows : SparseRows) (c : Coordinate) : Option CellValue :=
  rows[c.row]?.bind (·[c.col]?)

/-- Sets a cell; setting it to nothing takes it out of its row, and the row goes with its last cell. -/
def set (rows : SparseRows) (c : Coordinate) (v : CellValue) : SparseRows :=
  if v = .empty then
    match rows[c.row]? with
    | none => rows
    | some cells =>
      if (cells.erase c.col).isEmpty then rows.erase c.row else rows.insert c.row (cells.erase c.col)
  else rows.insert c.row ((rows.getD c.row ∅).insert c.col v)

/-- Takes a row out and puts it in again further down, unless that is past the last row of a sheet. -/
def moveRow (count : Nat) (rows : SparseRows) (row : Nat) : SparseRows :=
  match rows[row]? with
  | none => rows
  | some cells =>
    if row + count ≤ maxRow then (rows.erase row).insert (row + count) cells else rows.erase row

/-- Makes room for rows: the rows from `start` on are moved one by one, the last one first. -/
def shiftDown (rows : SparseRows) (start count : Nat) : SparseRows :=
  if count = 0 then rows
  else (rows.keys.filter (start ≤ ·)).reverse.foldl (moveRow count) rows

/-- The last row that is stored. -/
def lastRow? (rows : SparseRows) : Option Nat :=
  rows.maxKey?

/-- The stored cells, row by row and by their columns. -/
def entries (rows : SparseRows) : List (Coordinate × CellValue) :=
  rows.toList.flatMap fun row => row.2.toList.map fun cell => (⟨row.1, cell.1⟩, cell.2)

/-- Every stored row has a cell, and no stored cell is empty. -/
structure WellFormed (rows : SparseRows) : Prop where
  row_nonempty : ∀ (row : Nat) (cells : TreeMap Nat CellValue), rows[row]? = some cells → cells.isEmpty = false
  cell_filled : ∀ c, cell? rows c ≠ some .empty

variable {rows : SparseRows} {start count : Nat}

section Set

/-- The cells of a row after one of them was set; a row without cells is no row. -/
def rowAfter (cells : Option (TreeMap Nat CellValue)) (col : Nat) (v : CellValue) : Option (TreeMap Nat CellValue) :=
  if v = .empty then (cells.map (·.erase col)).filter (!·.isEmpty) else some ((cells.getD ∅).insert col v)

/-- Setting a cell changes its row, and no other. -/
theorem getElem?_set (rows : SparseRows) (c : Coordinate) (v : CellValue) (row : Nat) :
    (set rows c v)[row]? = if row = c.row then rowAfter rows[c.row]? c.col v else rows[row]? := by
  unfold set rowAfter
  by_cases hv : v = .empty
  · rw [if_pos hv, if_pos hv]
    cases hrow : rows[c.row]? with
    | none =>
      change rows[row]? = if row = c.row then none else rows[row]?
      split
      · next heq => rw [heq, hrow]
      · rfl
    | some cells =>
      rw [Option.map_some, Option.filter_some]
      cases hlast : (cells.erase c.col).isEmpty with
      | true => simp [hlast, TreeMap.getElem?_erase, eq_comm (a := c.row)]
      | false => simp [hlast, TreeMap.getElem?_insert, eq_comm (a := c.row)]
  · rw [if_neg hv, if_neg hv, TreeMap.getElem?_insert, TreeMap.getD_eq_getD_getElem?]
    simp only [Nat.compare_eq_eq, eq_comm (a := c.row)]

/-- A row that is left has a cell. -/
theorem isEmpty_rowAfter {cells : Option (TreeMap Nat CellValue)} {col : Nat} {v : CellValue}
    {after : TreeMap Nat CellValue} (h : rowAfter cells col v = some after) : after.isEmpty = false := by
  unfold rowAfter at h
  split at h
  · obtain ⟨-, hkept⟩ := Option.filter_eq_some_iff.mp h
    simpa using hkept
  · cases h
    exact TreeMap.isEmpty_insert

/-- In the row, the cell that was set is found unless it is empty, and all others as before. -/
theorem bind_rowAfter (cells : Option (TreeMap Nat CellValue)) (col k : Nat) (v : CellValue) :
    (rowAfter cells col v).bind (·[k]?) =
      if k = col then (if v = .empty then none else some v) else cells.bind (·[k]?) := by
  unfold rowAfter
  by_cases hv : v = .empty
  · rw [if_pos hv, if_pos hv]
    cases cells with
    | none => simp
    | some cells =>
      have herase : (cells.erase col)[k]? = if k = col then none else cells[k]? := by
        simp only [TreeMap.getElem?_erase, Nat.compare_eq_eq, eq_comm (a := col)]
      rw [Option.bind_some, ← herase, Option.map_some, Option.filter_some]
      cases hlast : (cells.erase col).isEmpty with
      | true => simp [TreeMap.getElem?_of_isEmpty hlast]
      | false => simp
  · rw [if_neg hv, if_neg hv, Option.bind_some, TreeMap.getElem?_insert]
    simp only [Nat.compare_eq_eq, eq_comm (a := col)]
    cases cells <;> simp

/-- A cell that is set is found where it was set, unless it is empty, and all others as before. -/
theorem cell?_set (rows : SparseRows) (c k : Coordinate) (v : CellValue) :
    cell? (set rows c v) k = if k = c then (if v = .empty then none else some v) else cell? rows k := by
  rw [cell?, getElem?_set]
  by_cases hrow : k.row = c.row
  · have hk : k = c ↔ k.col = c.col := by
      rw [Coordinate.ext_iff, and_iff_right hrow]
    have hcells : rows[c.row]?.bind (·[k.col]?) = cell? rows k := by rw [cell?, hrow]
    simp only [if_pos hrow, bind_rowAfter, hcells, hk]
  · rw [if_neg hrow, if_neg fun heq => hrow (congrArg Coordinate.row heq)]
    rfl

/-- Setting a cell keeps rows well-formed: what is put in is not empty, and a row without cells goes. -/
theorem WellFormed.set (h : WellFormed rows) (c : Coordinate) (v : CellValue) : WellFormed (rows.set c v) where
  row_nonempty row cells hcells := by
    rw [getElem?_set] at hcells
    split at hcells
    · exact isEmpty_rowAfter hcells
    · exact h.row_nonempty row cells hcells
  cell_filled k hempty := by
    rw [cell?_set] at hempty
    split at hempty
    · split at hempty
      · cases hempty
      · next hv => exact hv (Option.some.inj hempty)
    · exact h.cell_filled k hempty

end Set

section Shift

/-- A stored row that is moved is found further down, unless that is past the last row, and no longer where it was. -/
theorem getElem?_moveRow (count : Nat) {row : Nat} (hrow : row ∈ rows) (k : Nat) :
    (moveRow count rows row)[k]? =
      if k = row + count ∧ k ≤ maxRow then rows[row]? else if k = row then none else rows[k]? := by
  obtain ⟨cells, hcells⟩ := Option.isSome_iff_exists.mp (TreeMap.mem_iff_isSome_getElem?.mp hrow)
  simp only [moveRow, hcells]
  by_cases hroom : row + count ≤ maxRow
  · rw [if_pos hroom, TreeMap.getElem?_insert, TreeMap.getElem?_erase]
    simp only [Nat.compare_eq_eq]
    split_ifs <;> first | rfl | omega
  · rw [if_neg hroom, TreeMap.getElem?_erase]
    simp only [Nat.compare_eq_eq]
    split_ifs <;> first | rfl | omega

/-- A row that is moved leaves the rows above it alone. -/
theorem getElem?_moveRow_of_lt (count : Nat) {row : Nat} (hrow : row ∈ rows) {k : Nat} (hk : k < row) :
    (moveRow count rows row)[k]? = rows[k]? := by
  rw [getElem?_moveRow count hrow, if_neg (by omega), if_neg (by omega)]

/-- Rows that can be moved one after the other: stored rows from the last one to the first, each of which is moved to a
place that is free or from which a row is moved before. -/
structure Movable (rows : SparseRows) (count : Nat) (numbers : List Nat) : Prop where
  down : numbers.Pairwise (· > ·)
  stored : ∀ row ∈ numbers, row ∈ rows
  free : ∀ row ∈ numbers, row + count ∈ rows → row + count ∈ numbers

/-- When the last row has been moved, the others can still be moved. -/
theorem Movable.tail {row : Nat} {rest : List Nat} (h : Movable rows count (row :: rest)) :
    Movable (moveRow count rows row) count rest := by
  obtain ⟨hlast, hrest⟩ := List.pairwise_cons.mp h.down
  have hrow := h.stored row List.mem_cons_self
  refine ⟨hrest, fun other hother => ?_, fun other hother htaken => ?_⟩
  · rw [TreeMap.mem_iff_isSome_getElem?, getElem?_moveRow_of_lt count hrow (hlast other hother),
      ← TreeMap.mem_iff_isSome_getElem?]
    exact h.stored other (List.mem_cons_of_mem _ hother)
  · have hlt := hlast other hother
    rw [TreeMap.mem_iff_isSome_getElem?, getElem?_moveRow count hrow, if_neg (by omega)] at htaken
    split at htaken
    · cases htaken
    · next hne =>
      have hmem := h.free other (List.mem_cons_of_mem _ hother) (TreeMap.mem_iff_isSome_getElem?.mpr htaken)
      exact (List.mem_cons.mp hmem).resolve_left hne

/-- The rows from some row on can be moved from the last one to the first: what they may hit is among them. -/
theorem movable_keys (rows : SparseRows) (start count : Nat) :
    Movable rows count (rows.keys.filter (start ≤ ·)).reverse := by
  have hup : rows.keys.Pairwise (· < ·) := by
    simpa only [Nat.compare_eq_lt] using TreeMap.ordered_keys (t := rows)
  have hmem : ∀ row, row ∈ (rows.keys.filter (start ≤ ·)).reverse ↔ row ∈ rows ∧ start ≤ row := by
    intro row
    rw [List.mem_reverse, List.mem_filter, TreeMap.mem_keys, decide_eq_true_eq]
  exact ⟨List.pairwise_reverse.mpr (hup.filter _), fun row hrow => ((hmem row).mp hrow).1,
    fun row hrow htaken => (hmem _).mpr ⟨htaken, Nat.le_add_right_of_le ((hmem row).mp hrow).2⟩⟩

/-- Rows that can be moved one after the other all find their places: none of them is hit by another, those that would
come past the last row are lost, and no other row changes. -/
theorem Movable.getElem?_foldl_moveRow {numbers : List Nat} (h : Movable rows count numbers) (k : Nat) :
    (numbers.foldl (moveRow count) rows)[k]? =
      if count ≤ k ∧ k - count ∈ numbers ∧ k ≤ maxRow then rows[k - count]?
      else if k ∈ numbers then none else rows[k]? := by
  induction numbers generalizing rows with
  | nil => simp
  | cons row rest ih =>
    have hlast := (List.pairwise_cons.mp h.down).1
    have hrow := h.stored row List.mem_cons_self
    rw [List.foldl_cons, ih h.tail]
    -- A row comes to stand at `k` later, or now, or never.
    by_cases hlater : count ≤ k ∧ k - count ∈ rest ∧ k ≤ maxRow
    · rw [if_pos hlater, getElem?_moveRow_of_lt count hrow (hlast _ hlater.2.1),
        if_pos ⟨hlater.1, List.mem_cons_of_mem _ hlater.2.1, hlater.2.2⟩]
    rw [if_neg hlater, getElem?_moveRow count hrow]
    by_cases hnow : k = row + count ∧ k ≤ maxRow
    · have hstays : k ∉ rest := by
        intro hmem
        have hlt := hlast k hmem
        omega
      have hback : k - count = row := by omega
      rw [if_neg hstays, if_pos hnow, hback, if_pos ⟨by omega, List.mem_cons_self, hnow.2⟩]
    · have hnever : ¬ (count ≤ k ∧ k - count ∈ row :: rest ∧ k ≤ maxRow) := by
        rintro ⟨hle, hmem, hroom⟩
        rcases List.mem_cons.mp hmem with hback | hmem
        · exact hnow ⟨by omega, hroom⟩
        · exact hlater ⟨hle, hmem, hroom⟩
      rw [if_neg hnever, if_neg hnow]
      by_cases hk : k = row <;> simp [hk]

/-- What every row holds after rows were inserted: above them what it held, in them nothing, and below what the row as
many rows higher held, up to the last row. -/
theorem getElem?_shiftDown (hcount : count ≠ 0) (k : Nat) :
    (shiftDown rows start count)[k]? =
      if k < start then rows[k]? else if k < start + count ∨ maxRow < k then none else rows[k - count]? := by
  rw [shiftDown, if_neg hcount, (movable_keys rows start count).getElem?_foldl_moveRow]
  simp only [List.mem_reverse, List.mem_filter, TreeMap.mem_keys, decide_eq_true_eq]
  by_cases habove : k < start
  · rw [if_pos habove, if_neg (by omega), if_neg (by omega)]
  · have hleft : (if k ∈ rows ∧ start ≤ k then none else rows[k]?) = none := by
      split
      · rfl
      · next hnot => exact TreeMap.getElem?_eq_none fun hk => hnot ⟨hk, Nat.le_of_not_lt habove⟩
    rw [if_neg habove, hleft]
    by_cases hband : k < start + count ∨ maxRow < k
    · rw [if_pos hband, if_neg (by omega)]
    · rw [if_neg hband]
      split
      · rfl
      · next hnot => exact (TreeMap.getElem?_eq_none fun hk => hnot ⟨by omega, ⟨hk, by omega⟩, by omega⟩).symm

/-- Cells move with their rows. -/
theorem cell?_shiftDown (hcount : count ≠ 0) (k : Coordinate) :
    cell? (shiftDown rows start count) k =
      if k.row < start then cell? rows k
      else if k.row < start + count ∨ maxRow < k.row then none
      else cell? rows ⟨k.row - count, k.col⟩ := by
  rw [cell?, getElem?_shiftDown hcount]
  split_ifs <;> rfl

/-- Rows that move keep what they hold, so that they stay well-formed. -/
theorem WellFormed.shiftDown (h : WellFormed rows) (start count : Nat) : WellFormed (rows.shiftDown start count) := by
  by_cases hcount : count = 0
  · rwa [SparseRows.shiftDown, if_pos hcount]
  constructor
  · intro row cells hcells
    rw [getElem?_shiftDown hcount] at hcells
    split_ifs at hcells
    · exact h.row_nonempty _ cells hcells
    · exact h.row_nonempty _ cells hcells
  · intro k hempty
    rw [cell?_shiftDown hcount] at hempty
    split_ifs at hempty
    · exact h.cell_filled _ hempty
    · exact h.cell_filled _ hempty

end Shift

section View

/-- What is listed are the stored cells. -/
theorem mem_entries_iff {c : Coordinate} {v : CellValue} : (c, v) ∈ entries rows ↔ cell? rows c = some v := by
  rw [entries, List.mem_flatMap, cell?, Option.bind_eq_some_iff]
  constructor
  · rintro ⟨⟨row, cells⟩, hrow, hcell⟩
    obtain ⟨⟨col, w⟩, hcol, heq⟩ := List.mem_map.mp hcell
    cases heq
    exact ⟨cells, TreeMap.mem_toList_iff_getElem?_eq_some.mp hrow, TreeMap.mem_toList_iff_getElem?_eq_some.mp hcol⟩
  · rintro ⟨cells, hrow, hcol⟩
    exact ⟨(c.row, cells), TreeMap.mem_toList_iff_getElem?_eq_some.mpr hrow,
      List.mem_map.mpr ⟨(c.col, v), TreeMap.mem_toList_iff_getElem?_eq_some.mpr hcol, rfl⟩⟩

/-- The cells are listed in row-major order. -/
theorem sorted_entries (rows : SparseRows) : (entries rows).Pairwise fun a b => a.1.Before b.1 := by
  have hrows : rows.toList.Pairwise fun a b => a.1 < b.1 := by
    simpa only [Nat.compare_eq_lt] using TreeMap.ordered_keys_toList (t := rows)
  rw [entries, List.pairwise_flatMap]
  constructor
  · rintro ⟨row, cells⟩ -
    have hcells : cells.toList.Pairwise fun a b => a.1 < b.1 := by
      simpa only [Nat.compare_eq_lt] using TreeMap.ordered_keys_toList (t := cells)
    rw [List.pairwise_map]
    exact hcells.imp fun hlt => .inr ⟨rfl, hlt⟩
  · refine hrows.imp fun hlt x hx y hy => .inl ?_
    obtain ⟨_, -, rfl⟩ := List.mem_map.mp hx
    obtain ⟨_, -, rfl⟩ := List.mem_map.mp hy
    exact hlt

/-- A row is stored exactly if a cell of it is. -/
theorem WellFormed.mem_iff (h : WellFormed rows) {row : Nat} : row ∈ rows ↔ ∃ c v, c.row = row ∧ cell? rows c = some v := by
  rw [TreeMap.mem_iff_isSome_getElem?, Option.isSome_iff_exists]
  constructor
  · rintro ⟨cells, hcells⟩
    obtain ⟨col, hcol⟩ := TreeMap.isEmpty_eq_false_iff_exists_mem.mp (h.row_nonempty row cells hcells)
    obtain ⟨v, hv⟩ := Option.isSome_iff_exists.mp (TreeMap.mem_iff_isSome_getElem?.mp hcol)
    exact ⟨⟨row, col⟩, v, rfl, by rw [cell?, hcells, Option.bind_some, hv]⟩
  · rintro ⟨c, v, rfl, hcell⟩
    obtain ⟨cells, hcells, -⟩ := Option.bind_eq_some_iff.mp hcell
    exact ⟨cells, hcells⟩

/-- The last stored row is the last one that holds a cell. -/
theorem WellFormed.lastRow?_eq_some_iff (h : WellFormed rows) {row : Nat} :
    lastRow? rows = some row ↔
      (∃ c v, c.row = row ∧ cell? rows c = some v) ∧ ∀ c v, cell? rows c = some v → c.row ≤ row := by
  rw [lastRow?, TreeMap.maxKey?_eq_some_iff_mem_and_forall, h.mem_iff]
  refine and_congr_right fun _ => ?_
  simp only [h.mem_iff, Nat.isLE_compare]
  constructor
  · exact fun hall c v hcell => hall c.row ⟨c, v, rfl, hcell⟩
  · rintro hall _ ⟨c, v, rfl, hcell⟩
    exact hall c v hcell

end View

end SparseRows

end SheetFill
