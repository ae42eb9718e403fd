import Mathlib.Data.List.Find
import SheetFill.Proofs.Sheet.Content

/-!
# Rows that move down

Inserted rows move every row at or below them by one map, `Cells.movedRow`. Contents and the cover
of merged regions follow that map as long as the row stays on the sheet, and two insertions of which
the second comes inside or right below the first are one insertion of all the rows.

Ends of regions are bounded by the largest row number that is read. The last row of a sheet is far
above that bound, so that the bound is never seen from a row of the sheet.
-/

namespace SheetFill

/-- A row of a sheet is a row number that is read. -/
theorem maxRow_lt_maxRowNumber : maxRow < Coordinate.maxRowNumber := by decide

namespace Cells

/-- A row never moves up. -/
theorem le_movedRow (start count row : Nat) : row ≤ movedRow start count row := by
  unfold movedRow
  split <;> omega

@[simp] theorem movedRow_zero (start row : Nat) : movedRow start 0 row = row := by
  simp [movedRow]

/-- Different rows stay different. -/
theorem movedRow_inj {start count row other : Nat} :
    movedRow start count row = movedRow start count other ↔ row = other := by
  unfold movedRow
  split <;> split <;> omega

/-- Rows keep their order. -/
theorem movedRow_le_movedRow {start count row other : Nat} :
    movedRow start count row ≤ movedRow start count other ↔ row ≤ other := by
  unfold movedRow
  split <;> split <;> omega

/-- Contents move with their rows as long as these stay on the sheet. -/
theorem content_shiftDown_moved (cells : Cells) {start count : Nat} {c : Coordinate}
    (hrow : movedRow start count c.row ≤ maxRow) :
    (cells.shiftDown start count).content ⟨movedRow start count c.row, c.col⟩ = cells.content c := by
  by_cases hcount : count = 0
  · subst hcount
    simp
  · rw [content_shiftDown hcount]
    by_cases habove : c.row < start
    · simp [movedRow, habove]
    · simp only [movedRow, if_neg habove] at hrow ⊢
      have hbelow : ¬ (c.row + count < start) := by omega
      have hband : ¬ (c.row + count < start + count ∨ maxRow < c.row + count) := by omega
      rw [if_neg hbelow, if_neg hband, Nat.add_sub_cancel]

/-- What a sheet holds after a shift it held before, in the row that moved. -/
theorem content_shiftDown_eq_iff {cells : Cells} {start count : Nat} {c : Coordinate} {v : CellValue}
    (hv : v ≠ .empty) (hrows : ∀ k, cells.content k = v → k.row ≤ maxRow) :
    (cells.shiftDown start count).content c = v ↔
      ∃ k, cells.content k = v ∧ movedRow start count k.row ≤ maxRow ∧
        c = ⟨movedRow start count k.row, k.col⟩ := by
  constructor
  · intro h
    by_cases hcount : count = 0
    · subst hcount
      rw [shiftDown_zero] at h
      exact ⟨c, h, by simpa using hrows c h, by simp⟩
    · obtain ⟨k, hmem, hstays, rfl⟩ :=
        (mem_entries_shiftDown hcount).mp (mem_entries_iff.mpr ⟨h, hv⟩)
      have hk := (mem_entries_iff.mp hmem).1
      have hbound := hrows k hk
      refine ⟨k, hk, ?_, rfl⟩
      unfold movedRow
      split <;> omega
  · rintro ⟨k, hk, hrow, rfl⟩
    rw [content_shiftDown_moved cells hrow, hk]

/-- Rows inserted within or right below rows just inserted are inserted with them. -/
theorem shiftDown_shiftDown (cells : Cells) {start between first second : Nat} (hstart : start ≤ between)
    (hbetween : between ≤ start + first) :
    (cells.shiftDown start first).shiftDown between second = cells.shiftDown start (first + second) := by
  by_cases hfirst : first = 0
  · subst hfirst
    obtain rfl : between = start := by omega
    simp
  by_cases hsecond : second = 0
  · subst hsecond
    simp
  apply ext_content
  intro c
  rw [content_shiftDown hsecond, content_shiftDown hfirst, content_shiftDown hfirst,
    content_shiftDown (by omega : first + second ≠ 0)]
  have hsum : c.row - second - first = c.row - (first + second) := by omega
  simp only [hsum]
  split_ifs <;> first | rfl | omega

/-- A cell above the inserted rows may as well be set before they are inserted. -/
theorem shiftDown_set {cells : Cells} {start count : Nat} {c : Coordinate} (v : CellValue)
    (hrow : c.row < start) :
    (cells.set c v).shiftDown start count = (cells.shiftDown start count).set c v := by
  by_cases hcount : count = 0
  · subst hcount
    simp
  apply ext_content
  intro k
  rw [content_shiftDown hcount, content_set, content_set, content_set, content_shiftDown hcount]
  by_cases hk : k = c
  · subst hk
    simp [hrow]
  · simp only [if_neg hk]
    split
    · rfl
    · split
      · rfl
      · next hstart hband =>
        have hne : (⟨k.row - count, k.col⟩ : Coordinate) ≠ c := by
          intro heq
          have := congrArg Coordinate.row heq
          simp only at this
          omega
        rw [if_neg hne]

end Cells

namespace Sheet

open Cells (movedRow le_movedRow movedRow_zero movedRow_inj)

variable {start count : Nat} {c : Coordinate}

@[simp] theorem merges_shiftDown (sheet : Sheet) (start : Nat) (hcount : count ≠ 0) :
    (sheet.shiftDown start count).merges = sheet.merges.map (movedRegion start count) := by
  simp [shiftDown, hcount]

@[simp] theorem content_shiftDown (sheet : Sheet) (start count : Nat) (c : Coordinate) :
    (sheet.shiftDown start count).content c = (sheet.cells.shiftDown start count).content c := by
  rw [content, cells_shiftDown]

/-- Where the first corner of a region moves. -/
theorem first_movedRegion (start count : Nat) (region : CellRange) :
    (movedRegion start count region).first =
      ⟨if start ≤ region.first.row then rowBelow region.first.row count else region.first.row,
        region.first.col⟩ := by
  unfold movedRegion
  split_ifs <;> rfl

/-- Where the last corner of a region moves: its row decides alone, being the lower one. -/
theorem last_movedRegion (start count : Nat) (region : CellRange) :
    (movedRegion start count region).last =
      ⟨if start ≤ region.last.row then rowBelow region.last.row count else region.last.row,
        region.last.col⟩ := by
  have hle := region.row_le
  unfold movedRegion
  split_ifs <;> first | rfl | omega

/-- A moved region covers a moved coordinate exactly when it covered it before. -/
theorem mem_movedRegion_iff (region : CellRange) (hrow : movedRow start count c.row ≤ maxRow) :
    (⟨movedRow start count c.row, c.col⟩ : Coordinate) ∈ movedRegion start count region ↔ c ∈ region := by
  have hbound := maxRow_lt_maxRowNumber
  change CellRange.Mem _ _ ↔ CellRange.Mem _ _
  simp only [CellRange.Mem, first_movedRegion, last_movedRegion, movedRow, rowBelow] at hrow ⊢
  split_ifs at hrow ⊢ <;> omega

/-- A region that covers a coordinate has its anchor move with it. -/
theorem anchor_movedRegion_eq_iff {region : CellRange} (hmem : c ∈ region)
    (hrow : movedRow start count c.row ≤ maxRow) :
    (movedRegion start count region).anchor = ⟨movedRow start count c.row, c.col⟩ ↔ region.anchor = c := by
  have hbound := maxRow_lt_maxRowNumber
  obtain ⟨hfirst, -, -, -⟩ : CellRange.Mem region c := hmem
  simp only [CellRange.anchor, Coordinate.ext_iff, first_movedRegion, movedRow, rowBelow] at hrow ⊢
  split_ifs at hrow ⊢ <;> omega

/-- The region that decides about a coordinate is one of the sheet that holds it. -/
theorem mem_of_region?_eq_some {sheet : Sheet} {region : CellRange} (h : sheet.region? c = some region) :
    region ∈ sheet.merges ∧ c ∈ region := by
  unfold region? at h
  exact ⟨List.mem_of_find?_eq_some h, by simpa using List.find?_some h⟩

/-- If moved regions hold a moved coordinate as they held it before, the first that holds it is the first that did. -/
theorem region?_shiftDown_of_mem_iff (sheet : Sheet) (hcount : count ≠ 0)
    (hmem : ∀ region ∈ sheet.merges,
      (⟨movedRow start count c.row, c.col⟩ : Coordinate) ∈ movedRegion start count region ↔ c ∈ region) :
    (sheet.shiftDown start count).region? ⟨movedRow start count c.row, c.col⟩ =
      (sheet.region? c).map (movedRegion start count) := by
  unfold region?
  rw [merges_shiftDown sheet start hcount, List.find?_map]
  congr 1
  exact List.find?_congr fun region hregion => decide_eq_decide.mpr (hmem region hregion)

/-- If moreover their anchors move with it, the coordinate is suppressed as before. -/
theorem suppressed_shiftDown_of_mem_iff (sheet : Sheet) (hcount : count ≠ 0)
    (hmem : ∀ region ∈ sheet.merges,
      (⟨movedRow start count c.row, c.col⟩ : Coordinate) ∈ movedRegion start count region ↔ c ∈ region)
    (hanchor : ∀ region ∈ sheet.merges, c ∈ region →
      ((movedRegion start count region).anchor = ⟨movedRow start count c.row, c.col⟩ ↔ region.anchor = c)) :
    (sheet.shiftDown start count).Suppressed ⟨movedRow start count c.row, c.col⟩ ↔ sheet.Suppressed c := by
  unfold Suppressed
  rw [region?_shiftDown_of_mem_iff sheet hcount hmem]
  constructor
  · rintro ⟨_, hmoved, hne⟩
    obtain ⟨region, hregion, rfl⟩ := Option.map_eq_some_iff.mp hmoved
    obtain ⟨hin, hholds⟩ := mem_of_region?_eq_some hregion
    exact ⟨region, hregion, fun heq => hne ((hanchor region hin hholds).mpr heq)⟩
  · rintro ⟨region, hregion, hne⟩
    obtain ⟨hin, hholds⟩ := mem_of_region?_eq_some hregion
    exact ⟨_, by rw [hregion, Option.map_some], fun heq => hne ((hanchor region hin hholds).mp heq)⟩

/-- The cover of merged regions moves with the rows. -/
theorem suppressed_shiftDown (sheet : Sheet) (hrow : movedRow start count c.row ≤ maxRow) :
    (sheet.shiftDown start count).Suppressed ⟨movedRow start count c.row, c.col⟩ ↔ sheet.Suppressed c := by
  by_cases hcount : count = 0
  · subst hcount
    simp
  · exact suppressed_shiftDown_of_mem_iff sheet hcount (fun region _ => mem_movedRegion_iff region hrow)
      fun region _ hholds => anchor_movedRegion_eq_iff hholds hrow

/-- A region that two insertions move one after the other is moved by both at once. -/
theorem movedRegion_movedRegion (region : CellRange) {between first second : Nat} (hstart : start ≤ between)
    (hbetween : between ≤ start + first) :
    movedRegion between second (movedRegion start first region) =
      movedRegion start (first + second) region := by
  apply CellRange.ext
  · simp only [first_movedRegion, rowBelow, Coordinate.mk.injEq, and_true]
    split_ifs <;> omega
  · simp only [last_movedRegion, rowBelow, Coordinate.mk.injEq, and_true]
    split_ifs <;> omega

/-- Rows inserted within or right below rows just inserted are inserted with them. -/
theorem shiftDown_shiftDown (sheet : Sheet) {between first second : Nat} (hstart : start ≤ between)
    (hbetween : between ≤ start + first) :
    (sheet.shiftDown start first).shiftDown between second = sheet.shiftDown start (first + second) := by
  by_cases hfirst : first = 0
  · subst hfirst
    obtain rfl : between = start := by omega
    simp
  by_cases hsecond : second = 0
  · subst hsecond
    simp
  apply ext_content
  · simp
  · rw [merges_shiftDown _ _ hsecond, merges_shiftDown _ _ hfirst, merges_shiftDown _ _ (by omega),
      List.map_map]
    apply List.map_congr_left
    intro region _
    exact movedRegion_movedRegion region hstart hbetween
  · intro c
    rw [content_shiftDown, content_shiftDown, cells_shiftDown, Cells.shiftDown_shiftDown _ hstart hbetween]

/-- A cell above the inserted rows may as well be set before they are inserted. -/
theorem shiftDown_set (sheet : Sheet) (v : CellValue) (hrow : c.row < start) :
    (sheet.set c v).shiftDown start count = (sheet.shiftDown start count).set c v := by
  by_cases hcount : count = 0
  · subst hcount
    simp
  · simp [shiftDown, set, hcount, Cells.shiftDown_set v hrow]

end Sheet

end SheetFill
