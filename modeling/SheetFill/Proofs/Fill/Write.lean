import SheetFill.Fill.Write
import SheetFill.Proofs.Sheet.Workbook

/-!
# One protected write

A write concerns one sheet and one coordinate. Where no merged region covers the coordinate, it maps
the old content to a new one by `CellValue.afterWrite`; everywhere else, and in name and merged
regions, the sheet stays as it was. From this description follow what a write leaves alone and that
writes above inserted rows commute with the insertion.
-/

namespace SheetFill

/-- The content of a cell that no region covers after a datum was written to it. -/
def CellValue.afterWrite (overwrite : Bool) (datum : Tree) : CellValue → CellValue
  | .empty => datum.cellValue
  | .formula expression => .formula expression
  | old => if overwrite then datum.cellValue else old

namespace CellValue

/-- A formula is never replaced. -/
@[simp] theorem afterWrite_formula (overwrite : Bool) (datum : Tree) (expression : String) :
    afterWrite overwrite datum (.formula expression) = .formula expression := rfl

/-- Without overwriting, a content that is there stays. -/
theorem afterWrite_of_ne_empty {old : CellValue} (datum : Tree) (h : old ≠ .empty) :
    afterWrite false datum old = old := by
  cases old <;> first | rfl | exact absurd rfl h

/-- With overwriting, every content but a formula is replaced. -/
theorem afterWrite_of_not_formula {old : CellValue} (datum : Tree) (h : old.isFormula = false) :
    afterWrite true datum old = datum.cellValue := by
  cases old <;> first | rfl | cases h

/-- A write makes a formula of nothing. -/
theorem afterWrite_eq_formula_iff {overwrite : Bool} {datum : Tree} {old : CellValue} {expression : String} :
    afterWrite overwrite datum old = .formula expression ↔ old = .formula expression := by
  have hdatum : datum.cellValue ≠ .formula expression := by
    intro h
    have := datum.isFormula_cellValue
    rw [h] at this
    cases this
  cases old <;> cases overwrite <;> simp [afterWrite, hdatum]

end CellValue

namespace Sheet

/-- Writes a datum to a cell of the sheet, unless the cell is protected. -/
def write (sheet : Sheet) (overwrite : Bool) (c : Coordinate) (datum : Tree) : Sheet :=
  if sheet.outcome overwrite c = .written then sheet.set c datum.cellValue else sheet

variable (sheet : Sheet) (overwrite : Bool) (c k : Coordinate) (datum : Tree)

@[simp] theorem name_write : (sheet.write overwrite c datum).name = sheet.name := by
  unfold write
  split <;> rfl

@[simp] theorem merges_write : (sheet.write overwrite c datum).merges = sheet.merges := by
  unfold write
  split <;> rfl

@[simp] theorem suppressed_write : (sheet.write overwrite c datum).Suppressed k ↔ sheet.Suppressed k := by
  unfold write
  split <;> rfl

/-- What a write does, seen from every coordinate. -/
theorem content_write :
    (sheet.write overwrite c datum).content k =
      if k = c ∧ ¬ sheet.Suppressed c then (sheet.content c).afterWrite overwrite datum
      else sheet.content k := by
  by_cases hk : k = c
  · subst hk
    by_cases hsuppressed : sheet.Suppressed k
    · simp [write, outcome, hsuppressed]
    · simp only [write, outcome, hsuppressed, not_false_eq_true, and_self, if_true, if_false]
      cases hold : sheet.content k <;> cases overwrite <;> simp [CellValue.afterWrite, hold]
  · rw [if_neg fun h => hk h.1, write]
    split
    · rw [content_set, if_neg hk]
    · rfl

/-- What becomes of a write above inserted rows does not depend on them. -/
theorem outcome_shiftDown {start : Nat} (count : Nat) (hrow : c.row < start) (hsheet : c.row ≤ maxRow) :
    (sheet.shiftDown start count).outcome overwrite c = sheet.outcome overwrite c := by
  have hmoved : Cells.movedRow start count c.row = c.row := by simp [Cells.movedRow, hrow]
  have hstays : Cells.movedRow start count c.row ≤ maxRow := by rwa [hmoved]
  have hsuppressed := suppressed_shiftDown sheet hstays
  have hcontent := sheet.cells.content_shiftDown_moved hstays
  rw [hmoved] at hsuppressed hcontent
  unfold outcome
  rw [content_shiftDown, hcontent]
  simp only [hsuppressed]
  rfl

/-- A write above inserted rows may as well come before them. -/
theorem shiftDown_write {start : Nat} (count : Nat) (hrow : c.row < start) (hsheet : c.row ≤ maxRow) :
    (sheet.write overwrite c datum).shiftDown start count =
      (sheet.shiftDown start count).write overwrite c datum := by
  unfold write
  rw [outcome_shiftDown sheet overwrite c count hrow hsheet]
  split
  · exact shiftDown_set sheet _ hrow
  · rfl

end Sheet

namespace Workbook

variable (workbook : Workbook)

/-- A write changes one sheet. -/
theorem write_eq_modify (i : Nat) (overwrite : Bool) (c : Coordinate) (datum : Tree) :
    workbook.write i overwrite c datum = workbook.modify i (·.write overwrite c datum) := by
  apply ext_sheet?
  intro j
  rw [sheet?_modify]
  unfold write outcome sheet
  by_cases hi : i = j
  · subst hi
    cases hsheet : workbook.sheet? i with
    | none =>
      split <;> simp [set, sheet?_modify, hsheet]
    | some sheet =>
      simp only [Option.getD_some, if_true, Option.map_some, Sheet.write]
      split <;> simp [set, sheet?_modify, hsheet]
  · rw [if_neg hi]
    split
    · rw [set, sheet?_modify, if_neg hi]
    · rfl

/-- What becomes of a write above inserted rows does not depend on them. -/
theorem outcome_shiftDown (i : Nat) (overwrite : Bool) {c : Coordinate} {start : Nat} (count : Nat)
    (hrow : c.row < start) (hsheet : c.row ≤ maxRow) :
    (workbook.shiftDown i start count).outcome i overwrite c = workbook.outcome i overwrite c := by
  unfold outcome sheet shiftDown
  rw [sheet?_modify, if_pos rfl]
  cases workbook.sheet? i with
  | none => rfl
  | some sheet => exact sheet.outcome_shiftDown overwrite c count hrow hsheet

/-- A write above inserted rows may as well come before them. -/
theorem shiftDown_write (i : Nat) (overwrite : Bool) {c : Coordinate} (datum : Tree) {start : Nat}
    (count : Nat)
    (hrow : c.row < start) (hsheet : c.row ≤ maxRow) :
    (workbook.write i overwrite c datum).shiftDown i start count =
      (workbook.shiftDown i start count).write i overwrite c datum := by
  simp only [write_eq_modify, shiftDown, modify_modify]
  congr 1
  funext sheet
  exact sheet.shiftDown_write overwrite c datum count hrow hsheet

/-- Writing two lists of data is writing one after the other. -/
theorem writeAll_append (i : Nat) (overwrite : Bool) (first second : List (Coordinate × Tree))
    (state : Workbook × Tally) :
    writeAll i overwrite (first ++ second) state =
      writeAll i overwrite second (writeAll i overwrite first state) := by
  induction first generalizing state with
  | nil => rfl
  | cons e rest ih => exact ih _

/-- Every datum is counted, as written or as refused. -/
theorem written_add_skipped_writeAll (i : Nat) (overwrite : Bool) (data : List (Coordinate × Tree))
    (workbook : Workbook) (tally : Tally) :
    (writeAll i overwrite data (workbook, tally)).2.written + (writeAll i overwrite data (workbook, tally)).2.skipped =
      tally.written + tally.skipped + data.length := by
  induction data generalizing workbook tally with
  | nil => rfl
  | cons e rest ih =>
    obtain ⟨c, datum⟩ := e
    have hcount : ∀ outcome, (tally.count outcome).written + (tally.count outcome).skipped =
        tally.written + tally.skipped + 1 := by
      intro outcome
      cases outcome <;> simp only [Tally.count] <;> omega
    rw [writeAll, ih, hcount, List.length_cons]
    omega

/-- Writes above inserted rows may as well come before them, and count alike. -/
theorem writeAll_shiftDown {i : Nat} {overwrite : Bool} {data : List (Coordinate × Tree)}
    {start : Nat} (count : Nat)
    (hrows : ∀ e ∈ data, e.1.row < start ∧ e.1.row ≤ maxRow) (workbook : Workbook) (tally : Tally) :
    writeAll i overwrite data (workbook.shiftDown i start count, tally) =
      ((writeAll i overwrite data (workbook, tally)).1.shiftDown i start count,
        (writeAll i overwrite data (workbook, tally)).2) := by
  induction data generalizing workbook tally with
  | nil => rfl
  | cons e rest ih =>
    obtain ⟨c, datum⟩ := e
    obtain ⟨⟨hrow, hsheet⟩, hrest⟩ := List.forall_mem_cons.mp hrows
    simp only [writeAll]
    rw [← workbook.shiftDown_write i overwrite datum count hrow hsheet,
      workbook.outcome_shiftDown i overwrite count hrow hsheet]
    exact ih hrest _ _

end Workbook

end SheetFill
