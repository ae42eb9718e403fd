import SheetFill.Proofs.Package.Storing
import SheetFill.Proofs.Sheet.LastRow
import SheetFill.Proofs.Sheet.Workbook

/-!
# Storing a workbook after rows were inserted

Inserted rows move what a sheet shows, and as long as nothing leaves the sheet the moved cells and
regions can be stored as the old ones could. Cells that leave it are lost and need no place. A merged
region that leaves it is kept, and there is no place for it.

Main statement: inserted rows keep all cells within the rows of a sheet; they keep the merged regions
there exactly if they push none past the last row; and a workbook that can be stored can be stored
afterwards exactly if they push no region of more than one cell past it.
-/

namespace SheetFill

open Cells (movedRow)

namespace Package

variable {rules : Rules} {start count : Nat} {sheet : Sheet}

section Regions

variable {region : CellRange} (hcount : count ≤ maxRow + 1)

include hcount

/-- The rows of a region on the sheet stay far below the largest one read. -/
theorem read_of_le (hrow : region.last.row ≤ maxRow) : region.last.row + count ≤ Coordinate.maxRowNumber := by
  have hbound : maxRow + (maxRow + 1) ≤ Coordinate.maxRowNumber := by decide
  omega

/-- A region on the sheet moves to a single cell exactly if it is one. -/
theorem isSingle_movedRegion (hrow : region.last.row ≤ maxRow) :
    (Sheet.movedRegion start count region).IsSingle ↔ region.IsSingle := by
  obtain ⟨hfirst, hlast⟩ := Sheet.corners_movedRegion start (read_of_le hcount hrow)
  simp only [CellRange.IsSingle, hfirst, hlast, Coordinate.ext_iff, Cells.movedRow_inj]

/-- A moved region can be stored exactly if its last row stays on the sheet. -/
theorem isInside_movedRegion_iff (hinside : isInside region.first = true ∧ isInside region.last = true) :
    isInside (Sheet.movedRegion start count region).first = true ∧
        isInside (Sheet.movedRegion start count region).last = true ↔
      movedRow start count region.last.row ≤ maxRow := by
  simp only [isInside_iff] at hinside
  obtain ⟨hfirst, hlast⟩ := Sheet.corners_movedRegion start (read_of_le hcount hinside.2.1)
  have horder : movedRow start count region.first.row ≤ movedRow start count region.last.row :=
    Cells.movedRow_le_movedRow.mpr region.row_le
  simp only [isInside_iff, hfirst, hlast]
  omega

end Regions

/-- The regions of more than one cell are moved, and no others are among them afterwards. -/
theorem realMerges_shiftDown (hcount : count ≠ 0) (hlimit : count ≤ maxRow + 1)
    (hrows : ∀ region ∈ sheet.merges, region.last.row ≤ maxRow) :
    realMerges (sheet.shiftDown start count) =
      (realMerges sheet).map (Sheet.movedRegion start count) := by
  unfold realMerges
  rw [Sheet.merges_shiftDown sheet start hcount, List.filter_map]
  congr 1
  refine List.filter_congr fun region hmem => ?_
  simp [isSingle_movedRegion hlimit (hrows region hmem)]

/-- What is seen after rows were inserted was seen before and can be stored as well. -/
theorem isStorable_of_mem_visibleCells_shiftDown (hcount : count ≠ 0) (hwithin : sheet.WithinRows)
    (hcells : ∀ e ∈ visibleCells sheet, isInside e.1 = true ∧ isStorable e.2 = true)
    {e : Coordinate × CellValue} (h : e ∈ visibleCells (sheet.shiftDown start count)) :
    isInside e.1 = true ∧ isStorable e.2 = true := by
  obtain ⟨hentry, hseen⟩ := List.mem_filter.mp h
  rw [Sheet.cells_shiftDown] at hentry
  obtain ⟨c, v⟩ := e
  obtain ⟨k, hold, hstays, rfl⟩ := (Cells.mem_entries_shiftDown hcount).mp hentry
  obtain ⟨hcontent, hfilled⟩ := Cells.mem_entries_iff.mp hold
  have hrow : movedRow start count k.row ≤ maxRow := by
    have hbefore := hwithin.row_of_content k (by rwa [Sheet.content, hcontent])
    unfold movedRow
    split <;> omega
  have hvisible : (k, v) ∈ visibleCells sheet := by
    refine List.mem_filter.mpr ⟨hold, ?_⟩
    simpa [sheet.suppressed_shiftDown hrow] using hseen
  obtain ⟨hinside, hstorable⟩ := hcells _ hvisible
  exact ⟨isInside_iff.mpr ⟨hrow, (isInside_iff.mp hinside).2⟩, hstorable⟩

/-- A sheet that can be stored can be stored after rows were inserted exactly if no region of more than
one cell is pushed past the last row. -/
theorem isStorableSheet_shiftDown_iff (hrules : rules.Standard) (hlimit : count ≤ maxRow + 1)
    (hwithin : sheet.WithinRows) (h : rules.isStorableSheet sheet = true) :
    rules.isStorableSheet (sheet.shiftDown start count) = true ↔
      ∀ region ∈ realMerges sheet, movedRow start count region.last.row ≤ maxRow := by
  have hrows : ∀ region ∈ realMerges sheet, region.last.row ≤ maxRow := fun region hmem =>
    hwithin.row_of_mem_merges region (List.mem_filter.mp hmem).1
  by_cases hcount : count = 0
  · subst hcount
    simpa [h] using hrows
  obtain ⟨hname, hregions, hdisjoint, hcells⟩ := (isStorableSheet_iff hrules).mp h
  rw [isStorableSheet_iff hrules, realMerges_shiftDown hcount hlimit hwithin.row_of_mem_merges,
    Sheet.name_shiftDown, List.forall_mem_map, List.pairwise_map]
  constructor
  · rintro ⟨-, hinside, -, -⟩ region hmem
    exact (isInside_movedRegion_iff hlimit (hregions region hmem)).mp (hinside region hmem)
  · intro hstay
    refine ⟨hname, fun region hmem => ?_, hdisjoint.imp_of_mem fun ha hb hnot => ?_, fun e he => ?_⟩
    · exact (isInside_movedRegion_iff hlimit (hregions region hmem)).mpr (hstay region hmem)
    · have hreads := read_of_le hlimit (hrows _ ha)
      have hother := read_of_le hlimit (hrows _ hb)
      exact (not_congr (Sheet.overlaps_movedRegion_iff hreads hother)).mpr hnot
    · exact isStorable_of_mem_visibleCells_shiftDown hcount hwithin hcells he

/-- A workbook with a sheet can be stored exactly if each of its sheets can and their names differ. -/
theorem exists_store_eq_ok_iff (hrules : rules.Standard) {workbook : Workbook} {i : Nat}
    (hsheet : workbook.sheet? i = some sheet) :
    (∃ package, rules.store workbook = .ok package) ↔
      (∀ j other, workbook.sheet? j = some other → rules.isStorableSheet other = true) ∧
        rules.takesNames workbook.names = true := by
  have hstored : storedSheets workbook = workbook.sheets :=
    if_neg (List.ne_nil_of_mem (List.mem_of_getElem? hsheet))
  have hall : (∀ other ∈ workbook.sheets, rules.isStorableSheet other = true) ↔
      ∀ j other, workbook.sheet? j = some other → rules.isStorableSheet other = true := by
    constructor
    · intro h j other hother
      exact h other (List.mem_of_getElem? hother)
    · intro h other hother
      obtain ⟨j, hj⟩ := List.mem_iff_getElem?.mp hother
      exact h j other hj
  simp only [store_eq_ok_iff hrules, hstored, hall, exists_and_left, exists_eq, and_true]
  rfl

/-- A workbook that can be stored can be stored after rows were inserted on one of its sheets exactly
if no region of more than one cell is pushed past the last row. -/
theorem exists_store_shiftDown_iff (hrules : rules.Standard) {workbook : Workbook} {i : Nat}
    (hsheet : workbook.sheet? i = some sheet) (hwithin : sheet.WithinRows) (hlimit : count ≤ maxRow + 1)
    (h : ∃ package, rules.store workbook = .ok package) :
    (∃ package, rules.store (workbook.shiftDown i start count) = .ok package) ↔
      ∀ region ∈ realMerges sheet, movedRow start count region.last.row ≤ maxRow := by
  obtain ⟨hstorable, hdistinct⟩ := (exists_store_eq_ok_iff hrules hsheet).mp h
  have hnames : (workbook.shiftDown i start count).names = workbook.names :=
    workbook.names_modify i fun sheet => sheet.name_shiftDown start count
  have hmoved : (workbook.shiftDown i start count).sheet? i = some (sheet.shiftDown start count) := by
    rw [Workbook.shiftDown, Workbook.sheet?_modify, if_pos rfl, hsheet]
    rfl
  rw [exists_store_eq_ok_iff hrules hmoved, hnames,
    ← isStorableSheet_shiftDown_iff hrules hlimit hwithin (hstorable i sheet hsheet)]
  constructor
  · rintro ⟨hall, -⟩
    exact hall i _ hmoved
  · intro hself
    refine ⟨fun j other hother => ?_, hdistinct⟩
    by_cases hj : i = j
    · subst hj
      rw [hmoved] at hother
      cases hother
      exact hself
    · rw [Workbook.shiftDown, Workbook.sheet?_modify, if_neg hj] at hother
      exact hstorable j other hother

end Package

/-- Inserted rows keep the cells of a sheet within its rows. They keep its merged regions there exactly
if they push none past the last row, and a workbook that can be stored can be stored afterwards exactly
if they push no region of more than one cell past it, whatever library stores it that keeps to the rules of
spreadsheets. -/
theorem Workbook.shiftDown_withinRows {workbook : Workbook} {i : Nat} {sheet : Sheet}
    (hsheet : workbook.sheet? i = some sheet) (hwithin : sheet.WithinRows) (start count : Nat) :
    (∀ c, (sheet.shiftDown start count).content c ≠ .empty → c.row ≤ maxRow) ∧
    ((sheet.shiftDown start count).WithinRows ↔
      ∀ region ∈ sheet.merges, movedRow start count region.last.row ≤ maxRow) ∧
    ∀ rules : Package.Rules, rules.Standard → count ≤ maxRow + 1 → (∃ package, rules.store workbook = .ok package) →
      ((∃ package, rules.store (workbook.shiftDown i start count) = .ok package) ↔
        ∀ region ∈ Package.realMerges sheet, movedRow start count region.last.row ≤ maxRow) :=
  ⟨fun _ => Sheet.row_of_content_shiftDown hwithin.row_of_content, Sheet.withinRows_shiftDown_iff hwithin,
    fun _ hrules => Package.exists_store_shiftDown_iff hrules hsheet hwithin⟩

/-- A region that rows are inserted into, above a cell on the last row that is lost. -/
theorem Workbook.shiftDown_withinRows_lost_cell :
    let region : CellRange := ⟨⟨2, 1⟩, ⟨4, 2⟩, by decide, by decide⟩
    let sheet := ((Sheet.new "S").set ⟨maxRow, 0⟩ (.text "last")).merge region
    let workbook : Workbook := ⟨[sheet]⟩
    workbook.sheet? 0 = some sheet ∧ sheet.WithinRows ∧ Package.Rules.spreadsheet.Standard ∧ 5 ≤ maxRow + 1 ∧
      (∃ package, Package.store workbook = .ok package) ∧
      (sheet.shiftDown 3 5).WithinRows ∧
      ∃ package, Package.store (workbook.shiftDown 0 3 5) = .ok package := by
  intro region sheet workbook
  have hwithin : sheet.WithinRows := by
    constructor
    · intro c hc
      have hcontent : sheet.content c = if c = ⟨maxRow, 0⟩ then .text "last" else .empty :=
        (Sheet.new "S").content_set ⟨maxRow, 0⟩ c (.text "last")
      by_cases hc' : c = ⟨maxRow, 0⟩
      · exact Nat.le_of_eq (congrArg Coordinate.row hc')
      · rw [hcontent, if_neg hc'] at hc
        exact absurd rfl hc
    · decide
  have hstays : ∀ region ∈ sheet.merges, movedRow 3 5 region.last.row ≤ maxRow := by decide
  have hreal : ∀ region ∈ Package.realMerges sheet, movedRow 3 5 region.last.row ≤ maxRow := by decide
  have hstored : ∃ package, Package.store workbook = .ok package :=
    ⟨workbook.sheets.map Package.Rules.spreadsheet.storeSheet, by decide +kernel⟩
  have hsheet : workbook.sheet? 0 = some sheet := rfl
  obtain ⟨-, hregions, hstores⟩ := Workbook.shiftDown_withinRows hsheet hwithin 3 5
  have hafter := hstores _ Package.Rules.standard_spreadsheet (by decide) hstored
  exact ⟨hsheet, hwithin, Package.Rules.standard_spreadsheet, by decide, hstored, hregions.mpr hstays,
    hafter.mpr hreal⟩

/-- A region on the last row of a sheet: an inserted row pushes it off the sheet, and a workbook that
could be stored is refused. -/
theorem Workbook.shiftDown_region_past_last_row :
    let region : CellRange := ⟨⟨maxRow, 0⟩, ⟨maxRow, 1⟩, by decide, by decide⟩
    let sheet := (Sheet.new "S").merge region
    let workbook : Workbook := ⟨[sheet]⟩
    sheet.WithinRows ∧ ¬ (sheet.shiftDown 0 1).WithinRows ∧
      (∃ package, Package.store workbook = .ok package) ∧
      Package.store (workbook.shiftDown 0 0 1) = .error .exportRefused := by
  intro region sheet workbook
  have hwithin : sheet.WithinRows := ⟨fun c hc => absurd rfl hc, by decide⟩
  refine ⟨hwithin, fun h => ?_, ⟨workbook.sheets.map Package.Rules.spreadsheet.storeSheet, by decide +kernel⟩,
    by decide +kernel⟩
  have hrow := h.row_of_mem_merges (Sheet.movedRegion 0 1 region) (by decide)
  exact absurd hrow (by decide)

end SheetFill
