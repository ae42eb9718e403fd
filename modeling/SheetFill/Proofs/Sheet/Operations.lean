import SheetFill.Proofs.Sheet.RowShift
import SheetFill.Proofs.Sheet.SparseRows

/-!
# Sheets after any operations

A sheet starts with nothing; cells are set, regions are merged and rows are inserted. The same operations may be done on
a sparse sheet, which is stored as rows of cells and as corners of regions, and where a slip could leave a row without
cells, an empty cell, or a region with its corners out of order.

Main statement: whatever was done, the sparse sheet is well-formed and shows what the sheet shows. Both list all cells
that hold something, each once and in row-major order, and have the same last row, the last one with such a cell.
-/

namespace SheetFill

/-- The two corners of a region. -/
def CellRange.corners (region : CellRange) : Coordinate × Coordinate :=
  (region.first, region.last)

/-- What may be done to a sheet. -/
inductive SheetOperation where
  /-- A cell is set, perhaps to nothing. -/
  | set (c : Coordinate) (v : CellValue)
  /-- A region is merged. -/
  | merge (region : CellRange)
  /-- Rows are inserted above a row. -/
  | shiftDown (start count : Nat)

/-- A sheet that is stored as the rows of its cells and the corners of its merged regions. -/
structure SparseSheet where
  rows : SparseRows
  regions : List (Coordinate × Coordinate)

namespace SparseSheet

open Sheet (rowBelow)

/-- A sparse sheet that holds nothing. -/
def new : SparseSheet := ⟨∅, []⟩

/-- Where inserted rows move the corners of a region: both of them, or only the last one if the rows come between. -/
def movedCorners (start count : Nat) (corners : Coordinate × Coordinate) : Coordinate × Coordinate :=
  if start ≤ corners.1.row then
    (⟨rowBelow corners.1.row count, corners.1.col⟩, ⟨rowBelow corners.2.row count, corners.2.col⟩)
  else if start ≤ corners.2.row then (corners.1, ⟨rowBelow corners.2.row count, corners.2.col⟩)
  else corners

/-- Sets one cell. -/
def set (sparse : SparseSheet) (c : Coordinate) (v : CellValue) : SparseSheet :=
  { sparse with rows := sparse.rows.set c v }

/-- Merges a region; a region that is merged already is not added again. -/
def merge (sparse : SparseSheet) (region : CellRange) : SparseSheet :=
  if region.corners ∈ sparse.regions then sparse
  else { sparse with regions := sparse.regions ++ [region.corners] }

/-- Makes room for `count` rows above row `start`. -/
def shiftDown (sparse : SparseSheet) (start count : Nat) : SparseSheet :=
  if count = 0 then sparse
  else
    { rows := sparse.rows.shiftDown start count
      regions := sparse.regions.map (movedCorners start count) }

/-- The sparse sheet after an operation. -/
def perform (sparse : SparseSheet) : SheetOperation → SparseSheet
  | .set c v => sparse.set c v
  | .merge region => sparse.merge region
  | .shiftDown start count => sparse.shiftDown start count

/-- The sparse sheet after operations, one after the other. -/
def performAll (sparse : SparseSheet) (operations : List SheetOperation) : SparseSheet :=
  operations.foldl perform sparse

/-- The rows are well-formed, and no region ends above or left of where it starts. -/
structure WellFormed (sparse : SparseSheet) : Prop where
  rows : sparse.rows.WellFormed
  regions_ordered : ∀ corners ∈ sparse.regions,
    corners.1.row ≤ corners.2.row ∧ corners.1.col ≤ corners.2.col

end SparseSheet

namespace Sheet

/-- The sheet after an operation. -/
def perform (sheet : Sheet) : SheetOperation → Sheet
  | .set c v => sheet.set c v
  | .merge region => sheet.merge region
  | .shiftDown start count => sheet.shiftDown start count

/-- The sheet after operations, one after the other. -/
def performAll (sheet : Sheet) (operations : List SheetOperation) : Sheet :=
  operations.foldl perform sheet

end Sheet

namespace SparseSheet

variable {sparse : SparseSheet} {sheet : Sheet}

section WellFormed

/-- Corners in order stay in order when rows are inserted. -/
theorem ordered_movedCorners (start count : Nat) {corners : Coordinate × Coordinate}
    (h : corners.1.row ≤ corners.2.row ∧ corners.1.col ≤ corners.2.col) :
    (movedCorners start count corners).1.row ≤ (movedCorners start count corners).2.row ∧
      (movedCorners start count corners).1.col ≤ (movedCorners start count corners).2.col := by
  obtain ⟨hrow, hcol⟩ := h
  unfold movedCorners
  split_ifs
  · refine ⟨?_, hcol⟩
    simp only [Sheet.rowBelow]
    omega
  · refine ⟨?_, hcol⟩
    simp only [Sheet.rowBelow]
    omega
  · exact ⟨hrow, hcol⟩

theorem wellFormed_new : new.WellFormed where
  rows := ⟨fun row cells h => by simp [new] at h, fun c h => by simp [new, SparseRows.cell?] at h⟩
  regions_ordered _ h := by cases h

theorem WellFormed.set (h : sparse.WellFormed) (c : Coordinate) (v : CellValue) : (sparse.set c v).WellFormed :=
  ⟨h.rows.set c v, h.regions_ordered⟩

/-- A region that is merged has its corners in order. -/
theorem WellFormed.merge (h : sparse.WellFormed) (region : CellRange) : (sparse.merge region).WellFormed := by
  unfold SparseSheet.merge
  split
  · exact h
  · refine ⟨h.rows, fun corners hcorners => ?_⟩
    rcases List.mem_append.mp hcorners with hold | hnew
    · exact h.regions_ordered corners hold
    · rw [List.mem_singleton.mp hnew]
      exact ⟨region.row_le, region.col_le⟩

theorem WellFormed.shiftDown (h : sparse.WellFormed) (start count : Nat) : (sparse.shiftDown start count).WellFormed := by
  unfold SparseSheet.shiftDown
  split
  · exact h
  · refine ⟨h.rows.shiftDown start count, fun corners hcorners => ?_⟩
    obtain ⟨old, hold, rfl⟩ := List.mem_map.mp hcorners
    exact ordered_movedCorners start count (h.regions_ordered old hold)

/-- Every operation keeps a sparse sheet well-formed. -/
theorem WellFormed.perform (h : sparse.WellFormed) (operation : SheetOperation) :
    (sparse.perform operation).WellFormed := by
  cases operation with
  | set c v => exact h.set c v
  | merge region => exact h.merge region
  | shiftDown start count => exact h.shiftDown start count

/-- Operations in any number keep a sparse sheet well-formed. -/
theorem WellFormed.performAll (h : sparse.WellFormed) (operations : List SheetOperation) :
    (sparse.performAll operations).WellFormed := by
  induction operations generalizing sparse with
  | nil => exact h
  | cons operation rest ih => exact ih (h.perform operation)

end WellFormed

section Represents

/-- A sparse sheet has the cells and the regions of a sheet. -/
structure Represents (sparse : SparseSheet) (sheet : Sheet) : Prop where
  cell? : ∀ c, sparse.rows.cell? c = sheet.cells.get? c
  regions : sparse.regions = sheet.merges.map CellRange.corners

theorem represents_new (name : String) : new.Represents (Sheet.new name) where
  cell? c := by simp [new, SparseRows.cell?, Sheet.new]
  regions := rfl

theorem Represents.set (h : sparse.Represents sheet) (c : Coordinate) (v : CellValue) :
    (sparse.set c v).Represents (sheet.set c v) where
  cell? k := by
    change (sparse.rows.set c v).cell? k = (sheet.cells.set c v).get? k
    rw [SparseRows.cell?_set, Cells.get?_set, h.cell?]
  regions := h.regions

/-- Different regions have different corners. -/
theorem corners_mem_map_iff {region : CellRange} {merges : List CellRange} :
    region.corners ∈ merges.map CellRange.corners ↔ region ∈ merges := by
  refine List.mem_map_of_injective fun a b h => ?_
  exact CellRange.ext (congrArg Prod.fst h) (congrArg Prod.snd h)

theorem Represents.merge (h : sparse.Represents sheet) (region : CellRange) :
    (sparse.merge region).Represents (sheet.merge region) := by
  have hmem : region.corners ∈ sparse.regions ↔ region ∈ sheet.merges := by
    rw [h.regions, corners_mem_map_iff]
  simp only [SparseSheet.merge, Sheet.merge, hmem]
  split
  · exact h
  · exact ⟨h.cell?, by rw [h.regions, List.map_append, List.map_singleton]⟩

/-- Corners move like the region that they are of. -/
theorem corners_movedRegion (start count : Nat) (region : CellRange) :
    (Sheet.movedRegion start count region).corners = movedCorners start count region.corners := by
  change _ = if start ≤ region.first.row then (_, _) else if start ≤ region.last.row then (_, _) else (_, _)
  unfold Sheet.movedRegion
  split_ifs <;> rfl

theorem Represents.shiftDown (h : sparse.Represents sheet) (start count : Nat) :
    (sparse.shiftDown start count).Represents (sheet.shiftDown start count) := by
  simp only [SparseSheet.shiftDown, Sheet.shiftDown]
  split
  · exact h
  · next hcount =>
    refine ⟨fun k => ?_, ?_⟩
    · change (sparse.rows.shiftDown start count).cell? k = (sheet.cells.shiftDown start count).get? k
      rw [SparseRows.cell?_shiftDown hcount, Cells.get?_shiftDown hcount, h.cell?, h.cell?]
    · change sparse.regions.map (movedCorners start count) =
        (sheet.merges.map (Sheet.movedRegion start count)).map CellRange.corners
      rw [h.regions, List.map_map, List.map_map]
      exact List.map_congr_left fun region _ => (corners_movedRegion start count region).symm

/-- Every operation does the same to a sheet and to the sparse sheet for it. -/
theorem Represents.perform (h : sparse.Represents sheet) (operation : SheetOperation) :
    (sparse.perform operation).Represents (sheet.perform operation) := by
  cases operation with
  | set c v => exact h.set c v
  | merge region => exact h.merge region
  | shiftDown start count => exact h.shiftDown start count

/-- Operations in any number do the same to a sheet and to the sparse sheet for it. -/
theorem Represents.performAll (h : sparse.Represents sheet) (operations : List SheetOperation) :
    (sparse.performAll operations).Represents (sheet.performAll operations) := by
  induction operations generalizing sparse sheet with
  | nil => exact h
  | cons operation rest ih => exact ih (h.perform operation)

/-- A sparse sheet lists the cells as the sheet does. -/
theorem Represents.entries_eq (h : sparse.Represents sheet) : sparse.rows.entries = sheet.cells.entries := by
  refine Cells.eq_of_mem_iff sparse.rows.sorted_entries sheet.cells.sorted ?_
  rintro ⟨c, v⟩
  rw [SparseRows.mem_entries_iff, h.cell?, Cells.get?_eq_some_iff]

/-- A well-formed sparse sheet has the last row of the sheet. -/
theorem Represents.lastRow?_eq (h : sparse.Represents sheet) (hsparse : sparse.WellFormed) :
    sparse.rows.lastRow? = sheet.lastRow? := by
  have hfilled : ∀ c, (∃ v, sparse.rows.cell? c = some v) ↔ sheet.cells.content c ≠ .empty := by
    intro c
    simp only [h.cell?, Cells.get?_eq_ite, Option.ite_none_left_eq_some, Option.some.injEq, exists_and_left, exists_eq',
      and_true]
  refine Option.ext fun row => ?_
  rw [hsparse.rows.lastRow?_eq_some_iff, Sheet.lastRow?, Cells.lastRow?_eq_some_iff]
  simp only [← hfilled, exists_and_left, forall_exists_index]

end Represents

/-- Whatever was done to a sheet that held nothing: no stored row is without cells, no stored cell is empty, and every
region ends neither above nor left of where it starts. What is stored is what the sheet shows. The cells are listed in
row-major order, and these are the coordinates that hold something, with their contents. The last row is the last one that
holds something, and there is none exactly if the sheet is blank. A cell that is set next is found with its new content,
not at all if that is nothing, and every other cell as before. -/
theorem performAll_new_wellFormed (name : String) (operations : List SheetOperation) :
    let sheet := (Sheet.new name).performAll operations
    let sparse := SparseSheet.new.performAll operations
    sparse.WellFormed ∧ sparse.Represents sheet ∧
      sparse.rows.entries = sheet.cells.entries ∧ sparse.rows.lastRow? = sheet.lastRow? ∧
      (sheet.cells.entries.map Prod.fst).Pairwise Coordinate.Before ∧
      (∀ c v, (c, v) ∈ sheet.cells.entries ↔ sheet.content c = v ∧ v ≠ .empty) ∧
      (∀ row, sheet.lastRow? = some row ↔
        (∃ c, c.row = row ∧ sheet.content c ≠ .empty) ∧ ∀ c, sheet.content c ≠ .empty → c.row ≤ row) ∧
      (sheet.lastRow? = none ↔ ∀ c, sheet.content c = .empty) ∧
      ∀ c v k, (sheet.set c v).cells.get? k =
        if k = c then (if v = .empty then none else some v) else sheet.cells.get? k := by
  intro sheet sparse
  have hsparse : sparse.WellFormed := wellFormed_new.performAll operations
  have hsheet : sparse.Represents sheet := (represents_new name).performAll operations
  refine ⟨hsparse, hsheet, hsheet.entries_eq, hsheet.lastRow?_eq hsparse, ?_, fun c v => Cells.mem_entries_iff,
    fun row => Cells.lastRow?_eq_some_iff, Cells.lastRow?_eq_none_iff, fun c v k => sheet.cells.get?_set c k v⟩
  exact List.pairwise_map.mpr sheet.cells.sorted

/-- The first row loses its only cell, the region and the cell below it move down, and a row between them gets a cell. -/
theorem performAll_new_wellFormed_cleared_row :
    let operations : List SheetOperation :=
      [.set ⟨1, 1⟩ (.text "x"), .set ⟨0, 0⟩ (.boolean true), .merge ⟨⟨1, 0⟩, ⟨2, 2⟩, by decide, by decide⟩,
        .set ⟨0, 0⟩ .empty, .shiftDown 1 2, .set ⟨1, 2⟩ (.text "z")]
    let sparse := SparseSheet.new.performAll operations
    sparse.WellFormed ∧ sparse.rows.entries = [(⟨1, 2⟩, .text "z"), (⟨3, 1⟩, .text "x")] ∧
      sparse.rows.lastRow? = some 3 ∧ sparse.regions = [(⟨3, 0⟩, ⟨4, 2⟩)] := by
  intro operations sparse
  obtain ⟨hsparse, hsheet, hentries, hlast, -⟩ := performAll_new_wellFormed "S" operations
  exact ⟨hsparse, hentries.trans (by decide +kernel), hlast.trans (by decide +kernel),
    hsheet.regions.trans (by decide +kernel)⟩

end SparseSheet

end SheetFill
