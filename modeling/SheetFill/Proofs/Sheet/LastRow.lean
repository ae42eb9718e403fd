import SheetFill.Proofs.Sheet.RowShift

/-!
# Rows inserted near the last row

Cells that inserted rows push past the last row of a sheet are lost, so that the cells always stay
on the sheet. Merged regions are moved without that bound: a sheet keeps them within its rows
exactly if none of them is pushed past the last row.
-/

namespace SheetFill.Sheet

open Cells (movedRow)

variable {start count : Nat}

/-- All cells and merged regions lie within the rows of a sheet. -/
structure WithinRows (sheet : Sheet) : Prop where
  row_of_content : ∀ c, sheet.content c ≠ .empty → c.row ≤ maxRow
  row_of_mem_merges : ∀ region ∈ sheet.merges, region.last.row ≤ maxRow

/-- A moved region ends on the sheet exactly if its last row is not pushed off it. -/
theorem row_last_movedRegion_le_iff {region : CellRange} :
    (movedRegion start count region).last.row ≤ maxRow ↔ movedRow start count region.last.row ≤ maxRow := by
  have hbound := maxRow_lt_maxRowNumber
  simp only [last_movedRegion, movedRow, rowBelow]
  split_ifs <;> omega

/-- As long as rows are read, both corners of a region move like any other row. -/
theorem corners_movedRegion (start : Nat) {region : CellRange}
    (hread : region.last.row + count ≤ Coordinate.maxRowNumber) :
    (movedRegion start count region).first = ⟨movedRow start count region.first.row, region.first.col⟩ ∧
      (movedRegion start count region).last = ⟨movedRow start count region.last.row, region.last.col⟩ := by
  have hle := region.row_le
  simp only [first_movedRegion, last_movedRegion, movedRow, rowBelow, Coordinate.mk.injEq, and_true]
  constructor <;> split_ifs <;> omega

/-- As long as rows are read, two moved regions overlap exactly if they did before. -/
theorem overlaps_movedRegion_iff {region other : CellRange}
    (hread : region.last.row + count ≤ Coordinate.maxRowNumber)
    (hother : other.last.row + count ≤ Coordinate.maxRowNumber) :
    (movedRegion start count region).Overlaps (movedRegion start count other) ↔ region.Overlaps other := by
  obtain ⟨hfirst, hlast⟩ := corners_movedRegion start hread
  obtain ⟨hotherFirst, hotherLast⟩ := corners_movedRegion start hother
  simp only [CellRange.Overlaps, hfirst, hlast, hotherFirst, hotherLast, Cells.movedRow_le_movedRow]

/-- Inserted rows push no cell off the sheet. -/
theorem row_of_content_shiftDown {sheet : Sheet} (hrows : ∀ c, sheet.content c ≠ .empty → c.row ≤ maxRow)
    {c : Coordinate} (h : (sheet.shiftDown start count).content c ≠ .empty) : c.row ≤ maxRow := by
  by_cases hcount : count = 0
  · subst hcount
    exact hrows c h
  rw [content_shiftDown, Cells.content_shiftDown hcount] at h
  split at h
  · exact hrows c h
  · split at h
    · exact absurd rfl h
    · omega

/-- Inserted rows leave cells and regions within the rows of a sheet exactly if they push no region
past the last row. -/
theorem withinRows_shiftDown_iff {sheet : Sheet} (h : sheet.WithinRows) :
    (sheet.shiftDown start count).WithinRows ↔
      ∀ region ∈ sheet.merges, movedRow start count region.last.row ≤ maxRow := by
  by_cases hcount : count = 0
  · subst hcount
    simpa [h] using h.row_of_mem_merges
  constructor
  · intro hafter region hregion
    have hmoved : movedRegion start count region ∈ (sheet.shiftDown start count).merges := by
      rw [merges_shiftDown sheet start hcount]
      exact List.mem_map_of_mem hregion
    exact row_last_movedRegion_le_iff.mp (hafter.row_of_mem_merges _ hmoved)
  · intro hstay
    refine ⟨fun c => row_of_content_shiftDown h.row_of_content, ?_⟩
    rw [merges_shiftDown sheet start hcount, List.forall_mem_map]
    exact fun region hregion => row_last_movedRegion_le_iff.mpr (hstay region hregion)

end SheetFill.Sheet
