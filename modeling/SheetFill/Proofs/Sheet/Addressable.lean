import SheetFill.Proofs.Cell.Bounds
import SheetFill.Proofs.Sheet.Edit

/-!
# Cells that can be addressed

A sheet is addressable if all cells that it holds have a row and a column of a sheet. A write for such a cell keeps it
addressable, and so does every insertion of rows, for what it would push past the last row is lost.
-/

namespace SheetFill

/-- Every cell that the sheet holds is a place of a sheet. -/
def Sheet.Addressable (sheet : Sheet) : Prop :=
  ∀ e ∈ sheet.cells.entries, e.1.OnSheet

instance (sheet : Sheet) : Decidable sheet.Addressable :=
  inferInstanceAs (Decidable (∀ e ∈ sheet.cells.entries, e.1.OnSheet))

/-- Every cell that the workbook holds is a place of a sheet. -/
def Workbook.Addressable (workbook : Workbook) : Prop :=
  ∀ sheet ∈ workbook.sheets, sheet.Addressable

instance (workbook : Workbook) : Decidable workbook.Addressable :=
  inferInstanceAs (Decidable (∀ sheet ∈ workbook.sheets, sheet.Addressable))

/-- A datum is for a place of a sheet; rows may be inserted anywhere. -/
def Edit.OnSheet : Edit → Prop
  | write _ c _ => c.OnSheet
  | insert _ _ => True

namespace Sheet

variable {sheet : Sheet}

/-- A sheet is addressable exactly if coordinates beyond its bounds hold nothing. -/
theorem addressable_iff : sheet.Addressable ↔ ∀ c, sheet.content c ≠ .empty → c.OnSheet := by
  constructor
  · intro h c hfilled
    exact h (c, sheet.content c) (Cells.mem_entries_iff.mpr ⟨rfl, hfilled⟩)
  · rintro h ⟨c, v⟩ hmem
    obtain ⟨hcontent, hfilled⟩ := Cells.mem_entries_iff.mp hmem
    exact h c fun hempty => hfilled (hcontent.symm.trans hempty)

/-- A write for a place of the sheet keeps it addressable. -/
theorem Addressable.write (hsheet : sheet.Addressable) (overwrite : Bool) {c : Coordinate} (hc : c.OnSheet)
    (datum : Tree) : (sheet.write overwrite c datum).Addressable := by
  rw [addressable_iff] at hsheet ⊢
  intro k hfilled
  rw [content_write] at hfilled
  split at hfilled
  · next hk => rwa [hk.1]
  · exact hsheet k hfilled

/-- Inserted rows keep a sheet addressable: what would leave it is lost. -/
theorem Addressable.shiftDown (hsheet : sheet.Addressable) (start count : Nat) :
    (sheet.shiftDown start count).Addressable := by
  by_cases hcount : count = 0
  · rwa [hcount, shiftDown_zero]
  · rintro ⟨c, v⟩ hmem
    rw [cells_shiftDown] at hmem
    obtain ⟨k, hk, hstays, rfl⟩ := (Cells.mem_entries_shiftDown hcount).mp hmem
    obtain ⟨hrow, hcol⟩ := hsheet _ hk
    refine ⟨?_, hcol⟩
    simp only [Cells.movedRow] at hrow ⊢
    split <;> omega

/-- An edit for a place of the sheet keeps it addressable. -/
theorem Addressable.apply (hsheet : sheet.Addressable) {edit : Edit} (hedit : edit.OnSheet) :
    (edit.apply sheet).Addressable := by
  cases edit with
  | write overwrite c datum => exact hsheet.write overwrite hedit datum
  | insert start count => exact hsheet.shiftDown start count

/-- Edits for places of the sheet keep it addressable. -/
theorem Addressable.editAll (hsheet : sheet.Addressable) {edits : List Edit} (hedits : ∀ edit ∈ edits, edit.OnSheet) :
    (sheet.editAll edits).Addressable := by
  induction edits generalizing sheet with
  | nil => exact hsheet
  | cons edit rest ih =>
    obtain ⟨hfirst, hrest⟩ := List.forall_mem_cons.mp hedits
    exact ih (hsheet.apply hfirst) hrest

end Sheet

/-- Edits for places of sheets keep a workbook addressable. -/
theorem Workbook.Addressable.editAll {workbook : Workbook} (h : workbook.Addressable) {edits : List (Nat × Edit)}
    (hedits : ∀ e ∈ edits, e.2.OnSheet) : (workbook.editAll edits).Addressable := by
  intro sheet hsheet
  obtain ⟨i, hi⟩ := List.mem_iff_getElem?.mp hsheet
  change (workbook.editAll edits).sheet? i = some sheet at hi
  rw [sheet?_editAll] at hi
  obtain ⟨old, hold, rfl⟩ := Option.map_eq_some_iff.mp hi
  refine (h old (List.mem_of_getElem? hold)).editAll fun edit hedit => ?_
  exact hedits (i, edit) (mem_editsOf_iff.mp hedit)

end SheetFill
