import Mathlib.Data.List.Forall2
import SheetFill.Proofs.Sheet.LastRow

/-!
# Where everything stands after rows were inserted

Inserted rows are empty; everything at or below the place where they were inserted stands as many rows further down,
once and in its order, and everything above stands where it stood. Cells that would come to stand past the last row are
lost. A merged region moves as a whole or, if the rows come inside it, grows by them.

Main statement: this describes every sheet after any insertion of rows, and insertions at the same place add up.
-/

namespace SheetFill

namespace CellRange

/-- Where inserted rows move a region: as a whole, only its end if they come inside it, and not at all if they come
below it. -/
structure Moved (start count : Nat) (region moved : CellRange) : Prop where
  whole : start ≤ region.first.row → moved.first = ⟨region.first.row + count, region.first.col⟩ ∧
    moved.last = ⟨region.last.row + count, region.last.col⟩
  grown : region.first.row < start → start ≤ region.last.row → moved.first = region.first ∧
    moved.last = ⟨region.last.row + count, region.last.col⟩
  kept : region.last.row < start → moved = region

end CellRange

namespace Sheet

open Cells (movedRow)

/-- One sheet is another after rows were inserted above a row of it. -/
structure RowsInserted (start count : Nat) (sheet after : Sheet) : Prop where
  name : after.name = sheet.name
  above : ∀ c, c.row < start → after.content c = sheet.content c
  inserted : ∀ c, start ≤ c.row → c.row < start + count → after.content c = .empty
  moved : ∀ c, start ≤ c.row → c.row + count ≤ maxRow →
    after.content ⟨c.row + count, c.col⟩ = sheet.content c
  nothingElse : ∀ c, after.content c ≠ .empty → start ≤ c.row →
    ∃ k : Coordinate, start ≤ k.row ∧ k.row + count ≤ maxRow ∧ c = ⟨k.row + count, k.col⟩
  regions : List.Forall₂ (fun region moved => region.last.row + count ≤ maxRow →
    CellRange.Moved start count region moved) sheet.merges after.merges

variable {start count : Nat}

/-- A region that ends on the sheet after rows were inserted is moved by them. -/
theorem moved_movedRegion (start : Nat) {region : CellRange} (hrow : region.last.row + count ≤ maxRow) :
    CellRange.Moved start count region (movedRegion start count region) := by
  have horder := region.row_le
  have hread : region.last.row + count ≤ Coordinate.maxRowNumber :=
    Nat.le_trans hrow (Nat.le_of_lt maxRow_lt_maxRowNumber)
  have hfirst : (movedRegion start count region).first =
      ⟨movedRow start count region.first.row, region.first.col⟩ := (corners_movedRegion start hread).1
  have hlast : (movedRegion start count region).last =
      ⟨movedRow start count region.last.row, region.last.col⟩ := (corners_movedRegion start hread).2
  unfold movedRow at hfirst hlast
  constructor
  · intro hbelow
    rw [hfirst, hlast, if_neg (by omega), if_neg (by omega)]
    exact ⟨rfl, rfl⟩
  · intro habove hinside
    rw [hfirst, hlast, if_pos habove, if_neg (by omega)]
    exact ⟨rfl, rfl⟩
  · intro habove
    apply CellRange.ext
    · rw [hfirst, if_pos (by omega)]
    · rw [hlast, if_pos habove]

/-- Every sheet is described by where its cells and regions were before. -/
theorem rowsInserted_shiftDown (sheet : Sheet) (start : Nat) (hcount : count ≠ 0) :
    RowsInserted start count sheet (sheet.shiftDown start count) where
  name := name_shiftDown sheet start count
  above c habove := by
    rw [content_shiftDown, Cells.content_shiftDown hcount, if_pos habove]
    rfl
  inserted c hbelow hband := by
    rw [content_shiftDown, Cells.content_shiftDown hcount, if_neg (by omega), if_pos (.inl hband)]
  moved c hbelow hroom := by
    have hrow : movedRow start count c.row = c.row + count := if_neg (by omega)
    have hmoved : (sheet.cells.shiftDown start count).content ⟨movedRow start count c.row, c.col⟩ = sheet.content c :=
      sheet.cells.content_shiftDown_moved (by omega)
    rw [content_shiftDown, ← hmoved, hrow]
  nothingElse c hfilled hbelow := by
    rw [content_shiftDown, Cells.content_shiftDown hcount, if_neg (by omega)] at hfilled
    have hplace : ¬ (c.row < start + count ∨ maxRow < c.row) := fun hband => hfilled (if_pos hband)
    refine ⟨⟨c.row - count, c.col⟩, by simp only; omega, by simp only; omega, ?_⟩
    ext
    · simp only
      omega
    · rfl
  regions := by
    rw [merges_shiftDown sheet start hcount, List.forall₂_map_right_iff]
    exact List.forall₂_same.mpr fun region _ => moved_movedRegion start

/-- Without a row nothing changes. Otherwise every cell from the place of insertion on is found once and unchanged as
many rows further down, unless this is past the last row; the inserted rows are empty, the cells above them stay, and
there is no other cell. Regions that end on the sheet afterwards are moved or grow, and all regions keep their order.
Insertions at the same place are one insertion of all their rows. -/
theorem shiftDown_moves_rows (sheet : Sheet) (start : Nat) :
    sheet.shiftDown start 0 = sheet ∧
      (∀ count, count ≠ 0 → RowsInserted start count sheet (sheet.shiftDown start count)) ∧
      ∀ first second,
        (sheet.shiftDown start first).shiftDown start second = sheet.shiftDown start (first + second) := by
  refine ⟨shiftDown_zero sheet start, fun count => sheet.rowsInserted_shiftDown start, fun first second => ?_⟩
  exact sheet.shiftDown_shiftDown (Nat.le_refl _) (Nat.le_add_right _ _)

/-- Two rows come inside a table: its header stays, its item moves to where the total stood, the total moves on, and the
last row is lost. Of the regions one stays, one grows, and one moves. -/
theorem shiftDown_moves_rows_inside_table :
    let region (first last : Nat) (h : first ≤ last) : CellRange := ⟨⟨first, 0⟩, ⟨last, 1⟩, h, Nat.zero_le 1⟩
    let cells : Sheet := ((((Sheet.new "S").set ⟨0, 0⟩ (.text "Item")).set ⟨1, 0⟩ (.text "one")).set ⟨3, 0⟩
      (.formula "SUM(A2:A3)")).set ⟨maxRow, 0⟩ (.text "last")
    let sheet : Sheet :=
      { cells with merges := [region 0 0 (by decide), region 0 1 (by decide), region 1 3 (by decide)] }
    let after : Sheet := sheet.shiftDown 1 2
    RowsInserted 1 2 sheet after ∧ after.content ⟨3, 0⟩ = .text "one" ∧ after.content ⟨5, 0⟩ = .formula "SUM(A2:A3)" ∧
      after.content ⟨1, 0⟩ = .empty ∧ after.content ⟨maxRow, 0⟩ = .empty ∧
      after.merges = [region 0 0 (by decide), region 0 3 (by decide), region 3 5 (by decide)] ∧
      (sheet.shiftDown 1 1).shiftDown 1 1 = after := by
  intro region cells sheet after
  obtain ⟨-, hinserted, hadds⟩ := sheet.shiftDown_moves_rows 1
  have hrows : RowsInserted 1 2 sheet after := hinserted 2 (by decide)
  have hitem : sheet.content ⟨1, 0⟩ = .text "one" := by decide +kernel
  have htotal : sheet.content ⟨3, 0⟩ = .formula "SUM(A2:A3)" := by decide +kernel
  exact ⟨hrows, (hrows.moved ⟨1, 0⟩ (by decide) (by decide)).trans hitem,
    (hrows.moved ⟨3, 0⟩ (by decide) (by decide)).trans htotal, hrows.inserted ⟨1, 0⟩ (by decide) (by decide),
    by decide +kernel, by decide +kernel, hadds 1 1⟩

end Sheet

end SheetFill
