import SheetFill.Proofs.Sheet.LastRow

/-!
# The cover of merged regions after rows were inserted

Inserted rows move both corners of a region by the map of all rows, `Cells.movedRow`, as long as they push no region
past the last row. That map keeps the order of rows, so that a moved region holds a moved coordinate exactly if it held
it before, and the first region of the list that does so stays the first. A row of the inserted band is the image of
none: the regions that hold cells of it are those that grew, and their anchors lie above.

Main statement: the suppressed coordinates and their anchors move with the rows, regions without a common cell stay
without one, and of the inserted cells those are suppressed that lie in a region that grew. The regions may overlap.
-/

namespace SheetFill.Sheet

open Cells (movedRow movedRow_zero movedRow_inj movedRow_le_movedRow)

/-- The cover of one sheet is that of another after rows were inserted above a row of it. -/
structure CoverMoved (start count : Nat) (sheet after : Sheet) : Prop where
  wellFormed : ∀ region ∈ after.merges, region.first.row ≤ region.last.row ∧ region.first.col ≤ region.last.col ∧
    region.last.row ≤ maxRow
  disjoint : after.merges.Pairwise (fun a b => ¬ a.Overlaps b) ↔ sheet.merges.Pairwise fun a b => ¬ a.Overlaps b
  suppressed : ∀ c, after.Suppressed ⟨movedRow start count c.row, c.col⟩ ↔ sheet.Suppressed c
  anchor : ∀ c, (after.region? ⟨movedRow start count c.row, c.col⟩).map CellRange.anchor =
    (sheet.region? c).map fun region => ⟨movedRow start count region.anchor.row, region.anchor.col⟩
  inserted : ∀ c, start ≤ c.row → c.row < start + count → (after.Suppressed c ↔
    ∃ region ∈ sheet.merges, region.first.row < start ∧ start ≤ region.last.row ∧
      region.first.col ≤ c.col ∧ c.col ≤ region.last.col)

variable {start count : Nat} {region : CellRange} {c : Coordinate}

/-- Some region decides about a coordinate that a region holds. -/
theorem exists_region?_eq_some {sheet : Sheet} (hregion : region ∈ sheet.merges) (hmem : c ∈ region) :
    ∃ first, sheet.region? c = some first :=
  Option.isSome_iff_exists.mp (List.find?_isSome.mpr ⟨region, hregion, decide_eq_true hmem⟩)

section Region

/-- A region that ends on the sheet after rows were inserted has rows that are read. -/
theorem read_of_stays (hstays : region.last.row + count ≤ maxRow) :
    region.last.row + count ≤ Coordinate.maxRowNumber :=
  Nat.le_trans hstays (Nat.le_of_lt maxRow_lt_maxRowNumber)

/-- Its corners move like any other row. -/
theorem corners_of_stays (start : Nat) (hstays : region.last.row + count ≤ maxRow) :
    (movedRegion start count region).first = ⟨movedRow start count region.first.row, region.first.col⟩ ∧
      (movedRegion start count region).last = ⟨movedRow start count region.last.row, region.last.col⟩ :=
  corners_movedRegion start (read_of_stays hstays)

/-- It holds a moved coordinate exactly if it held the coordinate before. -/
theorem moved_mem_iff (hstays : region.last.row + count ≤ maxRow) :
    (⟨movedRow start count c.row, c.col⟩ : Coordinate) ∈ movedRegion start count region ↔ c ∈ region := by
  obtain ⟨hfirst, hlast⟩ := corners_of_stays start hstays
  change CellRange.Mem _ _ ↔ CellRange.Mem _ _
  simp only [CellRange.Mem, hfirst, hlast, movedRow_le_movedRow]

/-- It holds an inserted cell exactly if the rows came inside it and it has the cell's column. -/
theorem mem_moved_iff_of_inserted (hstays : region.last.row + count ≤ maxRow) (hbelow : start ≤ c.row)
    (hband : c.row < start + count) :
    c ∈ movedRegion start count region ↔
      region.first.row < start ∧ start ≤ region.last.row ∧ region.first.col ≤ c.col ∧ c.col ≤ region.last.col := by
  obtain ⟨hfirst, hlast⟩ := corners_of_stays start hstays
  change CellRange.Mem _ _ ↔ _
  simp only [CellRange.Mem, hfirst, hlast, movedRow]
  split_ifs <;> omega

end Region

section Sheet

variable {sheet : Sheet} (hstays : ∀ region ∈ sheet.merges, region.last.row + count ≤ maxRow)

include hstays

/-- The anchor of the region that decides about a coordinate moves with it. -/
theorem anchor_region?_moved (hcount : count ≠ 0) (c : Coordinate) :
    ((sheet.shiftDown start count).region? ⟨movedRow start count c.row, c.col⟩).map CellRange.anchor =
      (sheet.region? c).map fun region => ⟨movedRow start count region.anchor.row, region.anchor.col⟩ := by
  rw [region?_shiftDown_of_mem_iff sheet hcount fun region hmem => moved_mem_iff (hstays region hmem), Option.map_map]
  cases hregion : sheet.region? c with
  | none => rfl
  | some region =>
    have hmem := (mem_of_region?_eq_some hregion).1
    exact congrArg some (corners_of_stays start (hstays region hmem)).1

/-- An inserted cell is suppressed exactly if the rows came inside a region that has its column: whichever such region
comes first, its anchor lies above the inserted rows. -/
theorem suppressed_inserted_iff (hcount : count ≠ 0) (hbelow : start ≤ c.row) (hband : c.row < start + count) :
    (sheet.shiftDown start count).Suppressed c ↔
      ∃ region ∈ sheet.merges, region.first.row < start ∧ start ≤ region.last.row ∧
        region.first.col ≤ c.col ∧ c.col ≤ region.last.col := by
  have hmerges := merges_shiftDown sheet start hcount
  constructor
  · rintro ⟨moved, hmoved, -⟩
    obtain ⟨hmem, hholds⟩ := mem_of_region?_eq_some hmoved
    rw [hmerges] at hmem
    obtain ⟨region, hregion, rfl⟩ := List.mem_map.mp hmem
    exact ⟨region, hregion, (mem_moved_iff_of_inserted (hstays region hregion) hbelow hband).mp hholds⟩
  · rintro ⟨region, hregion, hgrown⟩
    have hholds := (mem_moved_iff_of_inserted (hstays region hregion) hbelow hband).mpr hgrown
    obtain ⟨first, hfirst⟩ := exists_region?_eq_some (hmerges ▸ List.mem_map_of_mem hregion) hholds
    refine ⟨first, hfirst, ?_⟩
    obtain ⟨hmem, hfirstHolds⟩ := mem_of_region?_eq_some hfirst
    rw [hmerges] at hmem
    obtain ⟨own, hown, rfl⟩ := List.mem_map.mp hmem
    obtain ⟨habove, -⟩ := (mem_moved_iff_of_inserted (hstays own hown) hbelow hband).mp hfirstHolds
    rintro rfl
    rw [CellRange.anchor, (corners_of_stays start (hstays own hown)).1] at hbelow
    simp only [movedRow, if_pos habove] at hbelow
    omega

/-- A moved coordinate is suppressed exactly if the coordinate was. -/
theorem suppressed_moved_iff (hcount : count ≠ 0) (c : Coordinate) :
    (sheet.shiftDown start count).Suppressed ⟨movedRow start count c.row, c.col⟩ ↔ sheet.Suppressed c := by
  refine suppressed_shiftDown_of_mem_iff sheet hcount (fun region hmem => moved_mem_iff (hstays region hmem))
    fun region hmem _ => ?_
  rw [CellRange.anchor, (corners_of_stays start (hstays region hmem)).1, Coordinate.mk.injEq, movedRow_inj,
    CellRange.anchor, Coordinate.ext_iff]

/-- Inserted rows that push no merged region past the last row move the cover of the regions with the rows: moved
coordinates are suppressed as before and have the moved anchors, and inserted cells are suppressed exactly inside regions
that grew. -/
theorem coverMoved_shiftDown (start : Nat) : CoverMoved start count sheet (sheet.shiftDown start count) := by
  by_cases hcount : count = 0
  · subst hcount
    exact
      { wellFormed := fun region hmem => ⟨region.row_le, region.col_le, hstays region hmem⟩
        disjoint := Iff.rfl
        suppressed := fun c => by simp
        anchor := fun c => by simp
        inserted := fun c hbelow hband => absurd hband (Nat.not_lt_of_le hbelow) }
  have hmerges := merges_shiftDown sheet start hcount
  refine
    { wellFormed := fun moved hmem => ⟨moved.row_le, moved.col_le, ?_⟩
      disjoint := ?_
      suppressed := suppressed_moved_iff hstays hcount
      anchor := anchor_region?_moved hstays hcount
      inserted := fun c => suppressed_inserted_iff hstays hcount }
  · rw [hmerges] at hmem
    obtain ⟨region, hregion, rfl⟩ := List.mem_map.mp hmem
    have hroom := hstays region hregion
    rw [(corners_of_stays start hroom).2]
    unfold movedRow
    split
    · exact Nat.le_trans (Nat.le_add_right _ _) hroom
    · exact hroom
  · rw [hmerges, List.pairwise_map]
    exact List.Pairwise.iff_of_mem fun ha hb =>
      not_congr (overlaps_movedRegion_iff (read_of_stays (hstays _ ha)) (read_of_stays (hstays _ hb)))

end Sheet

/-- Rows come inside two regions that overlap, and above a region without a cell in common with either. -/
theorem coverMoved_shiftDown_overlapping :
    let grown : CellRange := ⟨⟨1, 1⟩, ⟨3, 2⟩, by decide, by decide⟩
    let crossing : CellRange := ⟨⟨2, 0⟩, ⟨4, 1⟩, by decide, by decide⟩
    let below : CellRange := ⟨⟨3, 4⟩, ⟨5, 5⟩, by decide, by decide⟩
    let sheet := (((Sheet.new "S").merge grown).merge crossing).merge below
    (∀ region ∈ sheet.merges, region.last.row + 2 ≤ maxRow) ∧ CoverMoved 3 2 sheet (sheet.shiftDown 3 2) ∧
      (sheet.shiftDown 3 2).merges = [⟨⟨1, 1⟩, ⟨5, 2⟩, by decide, by decide⟩, ⟨⟨2, 0⟩, ⟨6, 1⟩, by decide, by decide⟩,
        ⟨⟨5, 4⟩, ⟨7, 5⟩, by decide, by decide⟩] ∧
      (sheet.shiftDown 3 2).Suppressed ⟨4, 0⟩ ∧ ¬ (sheet.shiftDown 3 2).Suppressed ⟨4, 4⟩ := by
  intro grown crossing below sheet
  have hstays : ∀ region ∈ sheet.merges, region.last.row + 2 ≤ maxRow := by decide
  exact ⟨hstays, coverMoved_shiftDown hstays 3, by decide, by decide, by decide⟩

end SheetFill.Sheet
