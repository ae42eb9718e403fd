import SheetFill.Proofs.Fill.Accounting

/-!
# Lists in chunks

A list that does not start with a list runs through the rows of a range one after the other. Cut into
chunks as long as the range is wide it is a list of rows, which is placed row by row. Both ways every
datum goes to the same cell, in the same order, and the same data find no room.

Main statement: filling a range with a list is filling it with the chunks of the list.
-/

namespace SheetFill

/-- Consecutive chunks of a list, of so many items each; the last one may be shorter. No chunk is empty, so that in
the place of chunks without items there are chunks of one. -/
def chunks {α : Type} (size : Nat) : List α → List (List α)
  | [] => []
  | first :: rest => (first :: rest.take (size - 1)) :: chunks size (rest.drop (size - 1))
termination_by items => items.length
decreasing_by simp only [List.length_drop, List.length_cons]; omega

section

variable {α : Type} {size : Nat}

/-- The first chunk is what stands in front, and the others are chunks of what follows. -/
theorem chunks_eq_cons (hsize : 0 < size) {items : List α} (h : items ≠ []) :
    chunks size items = items.take size :: chunks size (items.drop size) := by
  obtain ⟨first, rest, rfl⟩ := List.exists_cons_of_ne_nil h
  obtain ⟨n, rfl⟩ : ∃ n, size = n + 1 := ⟨size - 1, by omega⟩
  rw [chunks]
  rfl

/-- The chunks hold the items in their order. -/
theorem flatten_chunks (size : Nat) (items : List α) : (chunks size items).flatten = items := by
  fun_induction chunks size items with
  | case1 => rfl
  | case2 first rest ih => rw [List.flatten_cons, ih, List.cons_append, List.take_append_drop]

end

/-- Rows hold as many data as there are in all of them together. -/
theorem dataOfRows_map_list (rows : List (List Tree)) :
    dataOfRows (rows.map Tree.list) = rows.flatten.length := by
  induction rows with
  | nil => rfl
  | cons row rest ih =>
    change row.length + dataOfRows (rest.map Tree.list) = _
    rw [ih, List.flatten_cons, List.length_append]

/-- Chunks of a list that does not start with a list do start with one. -/
theorem startsWithList_chunks (size : Nat) (first : Tree) (rest : List Tree) :
    startsWithList ((chunks size (first :: rest)).map Tree.list) = true := by
  rw [chunks]
  rfl

namespace CellRange

variable (range : CellRange)

/-- An item with its cell, where the items of a list run through the rows of a range. -/
def runningCell (item : Tree × Nat) : Coordinate × Tree :=
  (range.offset (item.2 / range.cols) (item.2 % range.cols), item.1)

/-- A place within a row, counted through all rows, is found again in this row. -/
theorem runningCell_add (datum : Tree) (r : Nat) {col : Nat} (hcol : col < range.cols) :
    range.runningCell (datum, col + r * range.cols) = (range.offset r col, datum) := by
  rw [runningCell, Nat.add_mul_div_right _ _ (Nat.zero_lt_of_lt hcol), Nat.div_eq_of_lt hcol, Nat.zero_add,
    Nat.add_mul_mod_self_right, Nat.mod_eq_of_lt hcol]

/-- A chunk that stands in a row gives its data to the cells to which they run in the list. -/
theorem assignRow_take (items : List Tree) (r : Nat) :
    range.assignRow (.list (items.take range.cols)) r =
      ((items.take range.cols).zipIdx (r * range.cols)).map range.runningCell := by
  have hstart : (items.take range.cols).zipIdx (r * range.cols) =
      ((items.take range.cols).zipIdx).map (Prod.map id (· + r * range.cols)) := by
    rw [List.map_snd_add_zipIdx_eq_zipIdx, Nat.add_zero]
  rw [hstart, List.map_map, assignRow, Tree.rowCells, List.take_take, Nat.min_self]
  refine List.map_congr_left ?_
  rintro ⟨datum, col⟩ hmem
  obtain ⟨-, hcol⟩ := mem_zipIdx_take_iff.mp hmem
  exact (range.runningCell_add datum r hcol).symm

/-- Chunks that stand in rows give their data to the cells to which they run in the list. -/
theorem flatMap_assignRow_chunks (hcols : 0 < range.cols) (items : List Tree) (rows r : Nat) :
    ((((chunks range.cols items).map Tree.list).take rows).zipIdx r).flatMap
        (fun item => range.assignRow item.1 item.2) =
      ((items.take (rows * range.cols)).zipIdx (r * range.cols)).map range.runningCell := by
  induction rows generalizing items r with
  | zero => simp
  | succ rows ih =>
    by_cases hitems : items = []
    · rw [hitems, chunks]
      simp
    · have hnext : ((items.drop range.cols).take (rows * range.cols)).zipIdx
            (r * range.cols + (items.take range.cols).length) =
          ((items.drop range.cols).take (rows * range.cols)).zipIdx ((r + 1) * range.cols) := by
        -- Either the first chunk fills its row, or nothing follows it.
        by_cases hfull : range.cols ≤ items.length
        · rw [List.length_take_of_le hfull, Nat.add_one_mul]
        · rw [List.drop_of_length_le (Nat.le_of_not_le hfull)]
          simp
      have hsplit : items.take ((rows + 1) * range.cols) =
          items.take range.cols ++ (items.drop range.cols).take (rows * range.cols) := by
        rw [Nat.add_one_mul, Nat.add_comm, List.take_add]
      rw [hsplit, List.zipIdx_append, hnext, List.map_append, chunks_eq_cons hcols hitems,
        List.map_cons, List.take_succ_cons, List.zipIdx_cons, List.flatMap_cons, ih, assignRow_take]

/-- Rows of chunks give their data to the cells to which they run in the list, in the same order. -/
theorem assign_chunks {items : List Tree} (h : startsWithList items = false) :
    range.assign (.list ((chunks range.cols items).map Tree.list)) = range.assign (.list items) := by
  cases items with
  | nil =>
    rw [chunks]
    rfl
  | cons first rest =>
    rw [assign, startsWithList_chunks, if_pos rfl, assign, h, if_neg Bool.false_ne_true]
    rcases Nat.eq_zero_or_pos range.cols with hnone | hcols
    · -- Without columns no row of any length has room for a datum, and neither has the list.
      simp [assignRows, assignRow, assignFlat, hnone]
    · have hrows := range.flatMap_assignRow_chunks hcols (first :: rest) range.rows 0
      rwa [Nat.zero_mul] at hrows

/-- Of rows of chunks as many data find no room as of the list. -/
theorem overflow_chunks {items : List Tree} (h : startsWithList items = false) :
    range.overflow (.list ((chunks range.cols items).map Tree.list)) = range.overflow (.list items) := by
  have hlist := range.length_assign_add_overflow (.list items)
  have hrows := range.length_assign_add_overflow (.list ((chunks range.cols items).map Tree.list))
  have hcount : (Tree.list ((chunks range.cols items).map Tree.list)).dataCount =
      (Tree.list items).dataCount := by
    cases items with
    | nil =>
      rw [chunks]
      rfl
    | cons first rest =>
      rw [Tree.dataCount, startsWithList_chunks, if_pos rfl, dataOfRows_map_list, flatten_chunks,
        Tree.dataCount, h, if_neg Bool.false_ne_true]
  rw [hcount, ← hlist, range.assign_chunks h] at hrows
  exact Nat.add_left_cancel hrows

end CellRange

namespace Workbook

/-- A list that does not start with a list fills a range as its chunks do, each of them in a row of its
own: the workbook is the same, and so are the counts. -/
theorem fill_chunks (workbook : Workbook) (i : Nat) (overwrite : Bool) (range : CellRange)
    {items : List Tree} (h : startsWithList items = false) :
    workbook.fill i overwrite range (.list ((chunks range.cols items).map Tree.list)) =
      workbook.fill i overwrite range (.list items) := by
  rw [fill, fill, range.assign_chunks h, range.overflow_chunks h]

/-- Seven data, among them a list and null, for two rows of two cells of which one is a formula. -/
theorem fill_chunks_partial_last_row :
    let range : CellRange := ⟨⟨1, 1⟩, ⟨2, 2⟩, by decide, by decide⟩
    let workbook : Workbook := ⟨[(Sheet.new "S").set ⟨1, 2⟩ (.formula "1+1")]⟩
    let items : List Tree := [.text "a", .list [.text "b"], .null, .text "d", .text "e", .text "f", .text "g"]
    startsWithList items = false ∧
      (chunks range.cols items).map List.length = [2, 2, 2, 1] ∧
      workbook.fill 0 true range (.list ((chunks range.cols items).map Tree.list)) =
        workbook.fill 0 true range (.list items) ∧
      (workbook.fill 0 true range (.list items)).2 = ⟨⟨3, 1⟩, 3⟩ := by
  intro range workbook items
  have hlengths : (chunks range.cols items).map List.length = [2, 2, 2, 1] := by
    simp [items, range, CellRange.cols, wrap32, chunks]
  exact ⟨rfl, hlengths, fill_chunks workbook 0 true range rfl, by decide +kernel⟩

end Workbook

end SheetFill
