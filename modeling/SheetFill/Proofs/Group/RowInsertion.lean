import SheetFill.Group.Table
import SheetFill.Proofs.Cell.Bounds
import SheetFill.Proofs.Fill.Write

/-!
# Tables that insert their rows

A table with row insertion makes room for one item at a time and writes it before the next room is
made. The writes of an item come above every later insertion, so that all the room may be made
first: the table is one insertion of all its rows followed by the plain writes of
`RepeatingGroup.tableData`.

Main statement: a table that inserts rows is the same table without insertion on the sheet where a
block of as many rows was inserted at the start row. Workbook, counts and warnings agree.
-/

namespace SheetFill

namespace RepeatingGroup

variable (group : RepeatingGroup) (dialect : Dialect)

/-- The same group with or without insertion of rows. -/
def withInsertRows (group : RepeatingGroup) (insertRows : Bool) : RepeatingGroup :=
  { group with insertRows := insertRows }

/-- The cells of a table with their data, in the order of writing; the first row is `row`. -/
def tableData (group : RepeatingGroup) (dialect : Dialect) (row : Nat) (items : List Tree) :
    List (Coordinate × Tree) :=
  (items.zipIdx row).flatMap fun (item, r) => group.rowData dialect item r

@[simp] theorem tableData_nil (row : Nat) : group.tableData dialect row [] = [] := rfl

@[simp] theorem tableData_cons (row : Nat) (item : Tree) (rest : List Tree) :
    group.tableData dialect row (item :: rest) =
      group.rowData dialect item row ++ group.tableData dialect (row + 1) rest := by
  simp [tableData, List.zipIdx_cons]

/-- The data of a row are for cells of that row. -/
theorem row_of_mem_rowData {item : Tree} {row : Nat} {e : Coordinate × Tree}
    (h : e ∈ group.rowData dialect item row) : e.1.row = row := by
  obtain ⟨⟨col, path⟩, -, hcell⟩ := List.mem_filterMap.mp h
  dsimp only at hcell
  split at hcell
  · cases hcell
    rfl
  · cases hcell

/-- Without insertion the rows of a table are plain writes. -/
theorem writeRows_of_not_insertRows (hplain : group.insertRows = false) (sheet row : Nat) (items : List Tree)
    (state : Workbook × Tally) :
    group.writeRows dialect sheet row items state =
      Workbook.writeAll sheet group.overwrite (group.tableData dialect row items) state := by
  induction items generalizing row state with
  | nil => rfl
  | cons item rest ih =>
    rw [writeRows, ih, tableData_cons, Workbook.writeAll_append]
    simp [writeRow, hplain]

/-- With insertion the rows of a table are plain writes after room was made for all of them. -/
theorem writeRows_of_insertRows (hinsert : group.insertRows = true) (sheet row : Nat) (items : List Tree)
    (hroom : row + items.length ≤ maxRow + 1) (workbook : Workbook) (tally : Tally) :
    group.writeRows dialect sheet row items (workbook, tally) =
      Workbook.writeAll sheet group.overwrite (group.tableData dialect row items)
        (workbook.shiftDown sheet row items.length, tally) := by
  induction items generalizing row workbook tally with
  | nil => simp [writeRows, Workbook.writeAll]
  | cons item rest ih =>
    rw [List.length_cons] at hroom ⊢
    have hrows : ∀ e ∈ group.rowData dialect item row, e.1.row < row + 1 ∧ e.1.row ≤ maxRow := by
      intro e he
      rw [group.row_of_mem_rowData dialect he]
      omega
    have hblock : workbook.shiftDown sheet row (rest.length + 1) =
        (workbook.shiftDown sheet row 1).shiftDown sheet (row + 1) rest.length := by
      rw [workbook.shiftDown_shiftDown sheet (by omega) (by omega), Nat.add_comm]
    -- The item's own writes pass under the insertions of the later items.
    calc group.writeRows dialect sheet row (item :: rest) (workbook, tally)
        = group.writeRows dialect sheet (row + 1) rest
            (Workbook.writeAll sheet group.overwrite (group.rowData dialect item row)
              (workbook.shiftDown sheet row 1, tally)) := by
          rw [writeRows]
          simp [writeRow, hinsert]
      _ = Workbook.writeAll sheet group.overwrite (group.tableData dialect (row + 1) rest)
            (Workbook.writeAll sheet group.overwrite (group.rowData dialect item row)
              ((workbook.shiftDown sheet row 1).shiftDown sheet (row + 1) rest.length, tally)) := by
          rw [ih (row + 1) (by omega), Workbook.writeAll_shiftDown rest.length hrows]
      _ = _ := by rw [tableData_cons, Workbook.writeAll_append, hblock]

/-- The workbook with room for the rows of a table, if the table inserts them. -/
def makeRoom (group : RepeatingGroup) (sheet row count : Nat) (workbook : Workbook) : Workbook :=
  if group.insertRows then workbook.shiftDown sheet row count else workbook

/-- The warnings of a table: keys that name no column, paths that cannot be read, items that are
dropped. -/
def tableWarnings (group : RepeatingGroup) (dialect : Dialect) (items : List Tree) (row : Nat) :
    List Warning :=
  group.columnWarnings ++
    (items.take (group.roomFor row items.length)).flatMap
      (pathWarnings (group.columns.map Prod.snd) dialect) ++
    group.droppedWarnings (group.itemCount items.length - group.roomFor row items.length)

/-- No more items are repeated than there are. -/
theorem itemCount_le (available : Nat) : group.itemCount available ≤ available := by
  unfold itemCount
  split
  · exact Nat.min_le_right _ _
  · exact Nat.le_refl _

/-- As many items are written as rows are counted. -/
theorem length_take_roomFor (items : List Tree) (row : Nat) :
    (items.take (group.roomFor row items.length)).length = group.roomFor row items.length := by
  have hcount : group.roomFor row items.length ≤ group.itemCount items.length := Nat.min_le_left _ _
  exact List.length_take_of_le (Nat.le_trans hcount (group.itemCount_le _))

/-- The rows of a table end at the last row of the sheet, or there are none. -/
theorem row_add_roomFor_le (row available : Nat) :
    row + group.roomFor row available ≤ maxRow + 1 ∨ group.roomFor row available = 0 := by
  have hcount : group.roomFor row available ≤ maxRow + 1 - row := Nat.min_le_right _ _
  omega

/-- A table makes its room and then writes its data. -/
theorem expandAt_eq (items : List Tree) (sheet row : Nat) (workbook : Workbook) :
    group.expandAt dialect items sheet row workbook =
      let count := group.roomFor row items.length
      let written := Workbook.writeAll sheet group.overwrite (group.tableData dialect row (items.take count))
        (group.makeRoom sheet row count workbook, .zero)
      ⟨written.1, count, written.2, group.tableWarnings dialect items row⟩ := by
  have hlength := group.length_take_roomFor items row
  have hrows : group.writeRows dialect sheet row (items.take (group.roomFor row items.length))
      (workbook, .zero) =
      Workbook.writeAll sheet group.overwrite
        (group.tableData dialect row (items.take (group.roomFor row items.length)))
        (group.makeRoom sheet row (group.roomFor row items.length) workbook, .zero) := by
    cases hinsert : group.insertRows with
    | false =>
      rw [group.writeRows_of_not_insertRows dialect hinsert]
      simp [makeRoom, hinsert]
    | true =>
      rcases group.row_add_roomFor_le row items.length with hroom | hnone
      · rw [group.writeRows_of_insertRows dialect hinsert sheet row _ (by rwa [hlength]), hlength]
        simp [makeRoom, hinsert]
      · simp [hnone, makeRoom, writeRows, Workbook.writeAll]
  simp only [expandAt, hrows]
  rfl

/-- Where a table starts depends on the names of the sheets alone. -/
theorem start_congr {a b : Workbook} (h : a.names = b.names) (defaultSheet : Nat) :
    group.start a defaultSheet = group.start b defaultSheet := by
  simp only [start, Workbook.resolve_congr h]

/-- A table starts in the row of its start cell, on the sheet that this names, or else on the default one. -/
theorem start_eq_ok {workbook : Workbook} {defaultSheet sheet row : Nat}
    (h : group.start workbook defaultSheet = .ok (sheet, row)) :
    ∃ address, CellAddress.parse group.startText = .ok address ∧ address.cell.row = row ∧
      (sheet = defaultSheet ∨ workbook.resolve address.sheet = .ok sheet) := by
  obtain ⟨address, hparse, h⟩ := bind_eq_ok_iff.mp h
  refine ⟨address, hparse, ?_⟩
  cases hsheet : address.sheet with
  | none =>
    rw [hsheet] at h
    cases h
    exact ⟨rfl, .inl rfl⟩
  | some name =>
    rw [hsheet] at h
    obtain ⟨found, hfound, h⟩ := bind_eq_ok_iff.mp h
    cases h
    exact ⟨rfl, .inr hfound⟩

/-- A table starts in a row of a sheet. -/
theorem le_of_start_eq_ok {workbook : Workbook} {defaultSheet sheet row : Nat}
    (h : group.start workbook defaultSheet = .ok (sheet, row)) : row ≤ maxRow := by
  obtain ⟨address, hparse, rfl, -⟩ := group.start_eq_ok h
  exact (CellAddress.onSheet_of_parse hparse).1

/-- Inserting rows one by one is one block insertion: workbook, rows, counts and warnings are those
of the plain table on the workbook in which the block was inserted first. -/
theorem expandTable_insertRows (items : List Tree) (defaultSheet : Nat) (workbook : Workbook)
    {sheet row : Nat} (hstart : group.start workbook defaultSheet = .ok (sheet, row)) :
    ∃ outcome,
      (group.withInsertRows true).expandTable dialect items defaultSheet workbook = .ok outcome ∧
      (group.withInsertRows false).expandTable dialect items defaultSheet
        (workbook.shiftDown sheet row (min (group.itemCount items.length) (maxRow + 1 - row))) =
          .ok outcome := by
  have hnames : (workbook.shiftDown sheet row (min (group.itemCount items.length) (maxRow + 1 - row))).names =
      workbook.names :=
    workbook.names_modify sheet fun s => s.name_shiftDown row _
  have hinserting : (group.withInsertRows true).start workbook defaultSheet = .ok (sheet, row) := hstart
  have hplain : (group.withInsertRows false).start
      (workbook.shiftDown sheet row (min (group.itemCount items.length) (maxRow + 1 - row))) defaultSheet =
        .ok (sheet, row) := by
    rw [start_congr _ hnames]
    exact hstart
  refine ⟨(group.withInsertRows true).expandAt dialect items sheet row workbook, ?_, ?_⟩
  · rw [expandTable, hinserting]
    rfl
  · rw [expandTable, hplain]
    change Except.ok _ = Except.ok _
    rw [expandAt_eq, expandAt_eq]
    rfl

/-- Two items above a total, in a column of which a merged region straddles the insertion. -/
theorem expandTable_insertRows_above_total :
    let group : RepeatingGroup :=
      { startCell := some "A2", fields := ⟨[("A", "name"), ("B", "age")], by decide⟩ }
    let items : List Tree :=
      [.record [("name", .text "Ann")], .record [("age", .text "7"), ("name", .text "Bob")]]
    let workbook : Workbook :=
      ⟨[((Sheet.new "S").set ⟨1, 0⟩ (.text "Total")).merge ⟨⟨0, 1⟩, ⟨1, 1⟩, by decide, by decide⟩]⟩
    group.start workbook 0 = .ok (0, 1) ∧
      ∃ outcome,
        (group.withInsertRows true).expandTable .dotted items 0 workbook = .ok outcome ∧
        (group.withInsertRows false).expandTable .dotted items 0
          (workbook.shiftDown 0 1 (min (group.itemCount items.length) (maxRow + 1 - 1))) = .ok outcome :=
  ⟨rfl, expandTable_insertRows _ _ _ _ _ rfl⟩

end RepeatingGroup

end SheetFill
