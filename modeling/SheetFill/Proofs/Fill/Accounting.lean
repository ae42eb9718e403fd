import Mathlib.Data.Set.Card
import SheetFill.Proofs.Fill.WriteOrder
import SheetFill.Proofs.Sheet.Writes

/-!
# What a fill does, and what it counts

A value assigns data to places of a range: a list of lists by row and column, any other list row after
row, anything else to the first place. How many rows and columns there are is what the range itself
counts, in 32 bits. No place is given two data, so that every write finds the cell
as it was before the fill, and the writes that take place are the places that are not protected.

Main statement: a fill gives every assigned place its datum, unless the place is protected, and leaves
all else alone; it counts the places of both sorts, and together with the data that the range has no
room for these are all data of the value.
-/

namespace SheetFill

/-- The value assigns the datum to a row and a column of a range with so many rows and columns. -/
def Tree.Assigns (rows cols : Nat) (value : Tree) (r col : Nat) (datum : Tree) : Prop :=
  match value with
  | .list items =>
    if startsWithList items then
      r < rows ∧ col < cols ∧ ∃ row, items[r]? = some row ∧ row.rowCells[col]? = some datum
    else ∃ i, i < rows * cols ∧ items[i]? = some datum ∧ r = i / cols ∧ col = i % cols
  | other => r = 0 ∧ col = 0 ∧ datum = other

/-- How many data rows have. -/
def dataOfRows (rows : List Tree) : Nat :=
  rows.foldr (fun row n => row.rowCells.length + n) 0

/-- How many data a value has. -/
def Tree.dataCount : Tree → Nat
  | .list items => if startsWithList items then dataOfRows items else items.length
  | _ => 1

theorem dataOfRows_append (first second : List Tree) :
    dataOfRows (first ++ second) = dataOfRows first + dataOfRows second := by
  induction first with
  | nil => exact (Nat.zero_add _).symm
  | cons row rest ih =>
    change row.rowCells.length + dataOfRows (rest ++ second) = row.rowCells.length + dataOfRows rest + _
    rw [ih, Nat.add_assoc]

namespace CellRange

variable {range : CellRange} {c : Coordinate} {datum value : Tree}

/-- The cells of a range that a value assigns something to. -/
def Assigned (range : CellRange) (value : Tree) (c : Coordinate) : Prop :=
  ∃ r col datum, value.Assigns range.rows range.cols r col datum ∧ c = range.offset r col

/-- What a range gives to its cells is what the value assigns to their places. -/
theorem mem_assign_iff :
    (c, datum) ∈ range.assign value ↔
      ∃ r col, value.Assigns range.rows range.cols r col datum ∧ c = range.offset r col := by
  cases value with
  | list items =>
    simp only [assign, Tree.Assigns]
    split
    · rw [mem_assignRows_iff]
      constructor
      · rintro ⟨r, col, row, hrow, hr, hdatum, hcol, rfl⟩
        exact ⟨r, col, ⟨hr, hcol, row, hrow, hdatum⟩, rfl⟩
      · rintro ⟨r, col, ⟨hr, hcol, row, hrow, hdatum⟩, rfl⟩
        exact ⟨r, col, row, hrow, hr, hdatum, hcol, rfl⟩
    · rw [mem_assignFlat_iff]
      constructor
      · rintro ⟨i, hdatum, hi, rfl⟩
        exact ⟨_, _, ⟨i, hi, hdatum, rfl, rfl⟩, rfl⟩
      · rintro ⟨_, _, ⟨i, hi, hdatum, rfl, rfl⟩, rfl⟩
        exact ⟨i, hdatum, hi, rfl⟩
  | null | boolean | number | text | record =>
    simp only [assign, Tree.Assigns, List.mem_singleton, Prod.mk.injEq]
    constructor
    · rintro ⟨rfl, rfl⟩
      exact ⟨0, 0, ⟨rfl, rfl, rfl⟩, rfl⟩
    · rintro ⟨_, _, ⟨rfl, rfl, rfl⟩, rfl⟩
      exact ⟨rfl, rfl⟩

/-- The assigned cells are those that the range gives something to. -/
theorem assigned_iff : range.Assigned value c ↔ ∃ datum, (c, datum) ∈ range.assign value := by
  simp only [Assigned, mem_assign_iff]
  constructor
  · rintro ⟨r, col, datum, hassigns, hcell⟩
    exact ⟨datum, r, col, hassigns, hcell⟩
  · rintro ⟨datum, r, col, hassigns, hcell⟩
    exact ⟨r, col, datum, hassigns, hcell⟩

section Distinct

/-- Items that go to different cells for different numbers go to different cells. -/
theorem nodup_map_zipIdx {α : Type} (l : List α) {place : Nat → Coordinate} (hplace : Function.Injective place) :
    (l.zipIdx.map fun item => place item.2).Nodup := by
  have hnumbers : l.zipIdx.map (fun item => place item.2) = (List.range' 0 l.length).map place := by
    rw [← List.zipIdx_map_snd 0 l, List.map_map]
    rfl
  rw [hnumbers]
  exact List.Nodup.map hplace List.nodup_range'

/-- A row gives its data to different cells. -/
theorem nodup_assignRow (row : Tree) (r : Nat) : ((range.assignRow row r).map Prod.fst).Nodup := by
  rw [assignRow, List.map_map]
  exact nodup_map_zipIdx _ fun col other h => (offset_inj.mp h).2

/-- Rows give their data to different cells. -/
theorem nodup_assignRows (rows : List Tree) : ((range.assignRows rows).map Prod.fst).Nodup := by
  rw [assignRows, List.map_flatMap, List.nodup_flatMap]
  refine ⟨fun item _ => nodup_assignRow item.1 item.2, ?_⟩
  have hnumbers : ((rows.take range.rows).zipIdx.map Prod.snd).Pairwise (· ≠ ·) := by
    rw [List.zipIdx_map_snd]
    exact List.nodup_range'
  refine (List.pairwise_map.mp hnumbers).imp fun {first second} hne => ?_
  -- A cell in two rows of the range would have two row numbers.
  intro cell hfirst hsecond
  obtain ⟨⟨_, datum⟩, hmem, rfl⟩ := List.mem_map.mp hfirst
  obtain ⟨⟨_, other⟩, hother, hcell⟩ := List.mem_map.mp hsecond
  obtain ⟨_, -, -, rfl⟩ := mem_assignRow_iff.mp hmem
  obtain ⟨_, -, -, rfl⟩ := mem_assignRow_iff.mp hother
  exact hne (offset_inj.mp hcell).1.symm

/-- A list gives its items to different cells. -/
theorem nodup_assignFlat (items : List Tree) : ((range.assignFlat items).map Prod.fst).Nodup := by
  rw [assignFlat, List.map_map]
  have hplace : Function.Injective fun i => range.offset (i / range.cols) (i % range.cols) := by
    intro i j h
    obtain ⟨hrow, hcol⟩ := offset_inj.mp h
    rw [← Nat.div_add_mod i range.cols, ← Nat.div_add_mod j range.cols, hrow, hcol]
  exact nodup_map_zipIdx _ hplace

/-- A value gives its data to different cells. -/
theorem nodup_assign (range : CellRange) (value : Tree) : ((range.assign value).map Prod.fst).Nodup := by
  cases value with
  | list items =>
    rw [assign]
    split
    · exact nodup_assignRows items
    · exact nodup_assignFlat items
  | null | boolean | number | text | record => exact List.nodup_singleton _

end Distinct

section Room

/-- Of the data of rows those that a range has columns for are assigned. -/
theorem length_flatMap_assignRow (range : CellRange) (rows : List Tree) (start : Nat) :
    ((rows.zipIdx start).flatMap fun item => range.assignRow item.1 item.2).length +
        rows.foldr (fun row n => row.rowCells.length - range.cols + n) 0 = dataOfRows rows := by
  induction rows generalizing start with
  | nil => rfl
  | cons row rest ih =>
    have hrow : (range.assignRow row start).length = min range.cols row.rowCells.length := by
      simp [assignRow]
    have hrest := ih (start + 1)
    rw [List.zipIdx_cons, List.flatMap_cons, List.length_append, hrow, List.foldr_cons]
    change _ = row.rowCells.length + dataOfRows rest
    omega

/-- Of the data of rows each is assigned or has no room. -/
theorem length_assignRows_add_overflowRows (range : CellRange) (rows : List Tree) :
    (range.assignRows rows).length + range.overflowRows rows = dataOfRows rows := by
  have hinside := length_flatMap_assignRow range (rows.take range.rows) 0
  have hsplit := dataOfRows_append (rows.take range.rows) (rows.drop range.rows)
  rw [List.take_append_drop] at hsplit
  rw [hsplit, ← hinside, Nat.add_assoc]
  rfl

/-- Of the data of a value each is assigned or has no room. -/
theorem length_assign_add_overflow (range : CellRange) (value : Tree) :
    (range.assign value).length + range.overflow value = value.dataCount := by
  cases value with
  | list items =>
    simp only [assign, overflow, Tree.dataCount]
    split
    · exact length_assignRows_add_overflowRows range items
    · simp only [assignFlat, List.length_map, List.length_zipIdx, List.length_take]
      omega
  | null | boolean | number | text | record => rfl

end Room

end CellRange

/-- How many keys of a list have a property, if no key stands twice. -/
theorem ncard_eq_countP {α β : Type} [DecidableEq α] {entries : List (α × β)}
    (hnodup : (entries.map Prod.fst).Nodup) (p : α → Prop) [DecidablePred p] :
    {a | (∃ b, (a, b) ∈ entries) ∧ p a}.ncard = entries.countP fun e => p e.1 := by
  have hset : {a | (∃ b, (a, b) ∈ entries) ∧ p a} = ↑((entries.map Prod.fst).filter p).toFinset := by
    ext a
    simp
  rw [hset, Set.ncard_coe_finset, List.toFinset_card_of_nodup (hnodup.filter _),
    ← List.countP_eq_length_filter, List.countP_map]
  rfl

namespace Sheet

/-- A write takes place exactly in a cell that is not protected. -/
theorem outcome_eq_written_iff {sheet : Sheet} {overwrite : Bool} {c : Coordinate} :
    sheet.outcome overwrite c = .written ↔ ¬ sheet.Protected (overwrite = false) c := by
  simp only [outcome, Protected]
  split
  · next hsuppressed => simp [hsuppressed]
  · next hsuppressed =>
    cases hold : sheet.content c <;> cases overwrite <;> simp [CellValue.isFormula, hsuppressed]

end Sheet

namespace Workbook

/-- Data for different cells are counted by what the cells were before. -/
theorem snd_writeAll (i : Nat) (overwrite : Bool) {data : List (Coordinate × Tree)}
    (hnodup : (data.map Prod.fst).Nodup) (workbook : Workbook) (tally : Tally) :
    (writeAll i overwrite data (workbook, tally)).2 =
      tally.add ⟨data.countP fun e => workbook.outcome i overwrite e.1 = .written,
        data.countP fun e => workbook.outcome i overwrite e.1 ≠ .written⟩ := by
  induction data generalizing workbook tally with
  | nil => rfl
  | cons e rest ih =>
    obtain ⟨c, datum⟩ := e
    obtain ⟨hfirst, hrest⟩ := List.nodup_cons.mp hnodup
    have hsame : ∀ e ∈ rest, (workbook.write i overwrite c datum).outcome i overwrite e.1 =
        workbook.outcome i overwrite e.1 := by
      rintro ⟨k, other⟩ he
      have hne : c ≠ k := fun hcell =>
        hfirst (List.mem_map.mpr ⟨(k, other), he, hcell.symm⟩)
      exact outcome_write_of_ne workbook (p := ⟨i, c, datum⟩) (q := ⟨i, k, other⟩) fun _ => hne
    have hcount : ∀ p : WriteOutcome → Bool,
        rest.countP (fun e => p ((workbook.write i overwrite c datum).outcome i overwrite e.1)) =
          rest.countP (fun e => p (workbook.outcome i overwrite e.1)) :=
      fun p => List.countP_congr fun e he => by rw [hsame e he]
    rw [writeAll, ih hrest, hcount fun outcome => decide (outcome = .written),
      hcount fun outcome => decide (outcome ≠ .written), List.countP_cons, List.countP_cons]
    cases workbook.outcome i overwrite c <;> simp [Tally.count, Tally.add] <;> omega

/-- A fill counts the assigned cells that are not protected as written and the protected ones as skipped. -/
theorem tally_fill (workbook : Workbook) (i : Nat) (overwrite : Bool) (range : CellRange) (value : Tree) :
    (workbook.fill i overwrite range value).2.tally =
      ⟨{c | range.Assigned value c ∧ ¬ (workbook.sheet i).Protected (overwrite = false) c}.ncard,
        {c | range.Assigned value c ∧ (workbook.sheet i).Protected (overwrite = false) c}.ncard⟩ := by
  have hnodup := range.nodup_assign value
  have htally := snd_writeAll i overwrite hnodup workbook .zero
  have hwritten := ncard_eq_countP hnodup fun c => workbook.outcome i overwrite c = .written
  have hskipped := ncard_eq_countP hnodup fun c => workbook.outcome i overwrite c ≠ .written
  simp only [ne_eq, outcome, Sheet.outcome_eq_written_iff, not_not, ← CellRange.assigned_iff]
    at hwritten hskipped
  change (writeAll i overwrite (range.assign value) (workbook, .zero)).2 = _
  rw [htally, hwritten, hskipped]
  simp [Tally.add, Tally.zero, outcome]

/-- A fill counts every datum that the range has room for once. -/
theorem written_add_skipped_fill (workbook : Workbook) (i : Nat) (overwrite : Bool) (range : CellRange)
    (value : Tree) :
    (workbook.fill i overwrite range value).2.tally.written +
        (workbook.fill i overwrite range value).2.tally.skipped = (range.assign value).length := by
  have hcount := written_add_skipped_writeAll i overwrite (range.assign value) workbook .zero
  exact hcount.trans (Nat.zero_add _)

/-- The workbook was filled: the protected places keep their contents, the others take the data that
the value assigns to them, and all other cells, the names and the merged regions are as they were. The
counts are those of the places that took their data, of those that did not, and of the data that
have no place, which together are all data of the value. -/
structure Filled (workbook : Workbook) (i : Nat) (overwrite : Bool) (range : CellRange) (value : Tree)
    (filled : Workbook) (count : FillCount) : Prop where
  kept : ∀ r col datum, value.Assigns range.rows range.cols r col datum →
    (workbook.sheet i).Protected (overwrite = false) (range.offset r col) →
      filled.content i (range.offset r col) = workbook.content i (range.offset r col)
  placed : ∀ r col datum, value.Assigns range.rows range.cols r col datum →
    ¬ (workbook.sheet i).Protected (overwrite = false) (range.offset r col) →
      filled.content i (range.offset r col) = datum.cellValue
  others : ∀ j c, (j = i → ¬ range.Assigned value c) → filled.content j c = workbook.content j c
  names : filled.names = workbook.names
  merges : filled.sheets.map (·.merges) = workbook.sheets.map (·.merges)
  written : count.tally.written =
    {c | range.Assigned value c ∧ ¬ (workbook.sheet i).Protected (overwrite = false) c}.ncard
  skipped : count.tally.skipped =
    {c | range.Assigned value c ∧ (workbook.sheet i).Protected (overwrite = false) c}.ncard
  complete : count.tally.written + count.tally.skipped + count.truncated = value.dataCount

/-- A range of a sheet is filled with a value, whatever the corners of the range. The rows and columns that data are
assigned to are those that the range counts in 32 bits. -/
theorem filled_fill {workbook : Workbook} {i : Nat} (hsheet : i < workbook.sheets.length) (overwrite : Bool)
    (range : CellRange) (value : Tree) :
    workbook.Filled i overwrite range value (workbook.fill i overwrite range value).1
      (workbook.fill i overwrite range value).2 := by
  have hdata : (workbook.fill i overwrite range value).1 = workbook.editAll
      ((Edit.writes overwrite (range.assign value)).map fun edit => (i, edit)) := fst_writeAll ..
  have htally := workbook.tally_fill i overwrite range value
  rw [hdata]
  refine
    { kept := fun r col datum _ => content_editAll_data_of_protected hsheet
      placed := fun r col datum hassigns => ?_
      others := fun j c hother => content_editAll_data_of_not_mem fun hj datum hmem => ?_
      names := names_editAll workbook _
      merges := merges_editAll (isWrite_of_mem_map_writes i overwrite _) workbook
      written := by rw [htally]
      skipped := by rw [htally]
      complete := ?_ }
  · have hmem := CellRange.mem_assign_iff.mpr ⟨r, col, hassigns, rfl⟩
    exact content_editAll_data_of_not_protected hsheet hmem fun other hother =>
      CellRange.eq_of_mem_assign hother hmem
  · exact hother hj (CellRange.assigned_iff.mpr ⟨datum, hmem⟩)
  · rw [written_add_skipped_fill]
    exact range.length_assign_add_overflow value

/-- A range with one row more than the largest number of 32 bits counts none, and all data of a list are without room. -/
example :
    let range : CellRange := ⟨⟨0, 0⟩, ⟨4294967295, 0⟩, by decide, by decide⟩
    ((⟨[.new "S"]⟩ : Workbook).fill 0 true range (.list [.text "a", .text "b"])).2 = ⟨.zero, 2⟩ := by
  decide

/-- Ragged rows with a row that is no list, in a range with a formula and a covered cell. -/
theorem filled_fill_ragged_rows :
    let region : CellRange := ⟨⟨2, 0⟩, ⟨2, 1⟩, by decide, by decide⟩
    let range : CellRange := ⟨⟨1, 1⟩, ⟨2, 2⟩, by decide, by decide⟩
    let sheet := ((Sheet.new "S").set ⟨1, 1⟩ (.formula "1+1")).merge region
    let workbook : Workbook := ⟨[Sheet.new "R", sheet]⟩
    let value : Tree := .list [.list [.text "a", .text "b", .text "c"], .text "d", .list [.text "e"]]
    1 < workbook.sheets.length ∧
      workbook.Filled 1 false range value (workbook.fill 1 false range value).1
        (workbook.fill 1 false range value).2 ∧
      (workbook.fill 1 false range value).2 = ⟨⟨1, 2⟩, 2⟩ ∧
      (workbook.fill 1 false range value).1.content 1 ⟨1, 2⟩ = .text "b" := by
  intro region range sheet workbook value
  exact ⟨by decide, filled_fill (by decide) false range value, by decide +kernel, by decide +kernel⟩

end Workbook

end SheetFill
