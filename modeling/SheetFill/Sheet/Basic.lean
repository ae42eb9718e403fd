import SheetFill.Cell.Range
import SheetFill.Sheet.Cells

/-!
# Sheets

A sheet has a name, cells, and merged regions in the order in which they were added. Of a merged region only the anchor
takes content: `Sheet.Suppressed` says which coordinates a region covers. Where regions overlap, the one added first
decides.
-/

namespace SheetFill

/-- A sheet of a workbook. -/
structure Sheet where
  name : String
  cells : Cells
  merges : List CellRange
deriving DecidableEq

namespace Sheet

/-- A sheet that holds nothing. -/
def new (name : String) : Sheet := ⟨name, .none, []⟩

instance : Inhabited Sheet := ⟨new ""⟩

/-- The content of a coordinate. -/
def content (sheet : Sheet) (c : Coordinate) : CellValue :=
  sheet.cells.content c

/-- The content of the cell that a text names; a text that names none reads as nothing. -/
def valueAt (sheet : Sheet) (reference : String) : CellValue :=
  match Coordinate.parse reference with
  | .ok c => sheet.content c
  | .error _ => .empty

/-- Sets one cell. -/
def set (sheet : Sheet) (c : Coordinate) (v : CellValue) : Sheet :=
  { sheet with cells := sheet.cells.set c v }

/-- Merges a region; a region that is merged already is not added again. -/
def merge (sheet : Sheet) (region : CellRange) : Sheet :=
  if region ∈ sheet.merges then sheet else { sheet with merges := sheet.merges ++ [region] }

/-- The last row that holds a cell. -/
def lastRow? (sheet : Sheet) : Option Nat :=
  sheet.cells.lastRow?

/-- The merged region that covers a coordinate. -/
def region? (sheet : Sheet) (c : Coordinate) : Option CellRange :=
  sheet.merges.find? (c ∈ ·)

/-- A merged region covers the coordinate, and it is not the region's anchor. -/
def Suppressed (sheet : Sheet) (c : Coordinate) : Prop :=
  ∃ region, sheet.region? c = some region ∧ region.anchor ≠ c

instance (sheet : Sheet) (c : Coordinate) : Decidable (sheet.Suppressed c) :=
  match h : sheet.region? c with
  | none => isFalse fun ⟨_, hr, _⟩ => by simp [h] at hr
  | some region =>
    if ha : region.anchor = c then
      isFalse fun ⟨_, hr, hne⟩ => by
        rw [h] at hr
        cases hr
        exact hne ha
    else isTrue ⟨region, h, ha⟩

/-- The row `count` below a row, or the largest row number that is read if that is beyond it. -/
def rowBelow (row count : Nat) : Nat :=
  max row (min (row + count) Coordinate.maxRowNumber)

/-- Where new rows move a merged region: as a whole, or only its end if they come inside it. -/
def movedRegion (start count : Nat) (region : CellRange) : CellRange :=
  if start ≤ region.first.row then
    { first := ⟨rowBelow region.first.row count, region.first.col⟩
      last := ⟨rowBelow region.last.row count, region.last.col⟩
      row_le := by
        have := region.row_le
        simp only [rowBelow]
        omega
      col_le := region.col_le }
  else if start ≤ region.last.row then
    { first := region.first
      last := ⟨rowBelow region.last.row count, region.last.col⟩
      row_le := by
        have := region.row_le
        simp only [rowBelow]
        omega
      col_le := region.col_le }
  else region

/-- Makes room for `count` rows above row `start`: cells and merged regions from there on move down. -/
def shiftDown (sheet : Sheet) (start count : Nat) : Sheet :=
  if count = 0 then sheet
  else
    { sheet with
      cells := sheet.cells.shiftDown start count
      merges := sheet.merges.map (movedRegion start count) }

end Sheet

end SheetFill
