import Mathlib.Data.List.Basic
import SheetFill.Package.Basic
import SheetFill.Proofs.Sheet.Content

/-!
# What is stored of a workbook

A workbook is stored if each of its sheets can be and their names differ. Of a sheet the cells are
stored that no merged region suppresses, each at its own position, and the merged regions of more than
one cell, none of them twice.

What can be stored, and as what, is up to the library that writes packages. `Rules.Standard` is what is
documented of it, and all that storing and loading rest on.
-/

namespace SheetFill.Package

/-- The library keeps to the rules of spreadsheets: it takes merged regions on the sheet that do not overlap, and
contents on the sheet that are not too long; it keeps texts, but for the empty one, and finite numbers, and writes the
names of other numbers and zero beside a formula. Which names it takes is open, but it takes the one that it gives to
a sheet itself. -/
structure Rules.Standard (rules : Rules) : Prop where
  takesName_own : rules.takesName "Sheet1" = true
  takesNames_own : rules.takesNames ["Sheet1"] = true
  takesMerges_iff : ∀ regions, rules.takesMerges regions = true ↔
    (∀ region ∈ regions, isInside region.first = true ∧ isInside region.last = true) ∧
      regions.Pairwise fun a b => ¬ a.Overlaps b
  takesCell_iff : ∀ c v, rules.takesCell c v = true ↔ isInside c = true ∧ isStorable v = true
  textValue?_eq : ∀ s, rules.textValue? s = if s = "" then none else some (.text s)
  numberValue_of_isFinite : ∀ d, d.isFinite = true → rules.numberValue d = .number d
  numberValue_of_not_isFinite : ∀ d, d.isFinite = false → rules.numberValue d = .text (numberName d)
  formulaResult_eq : rules.formulaResult = .number (Double.ofNat 0)

/-- The rules of spreadsheets are standard. -/
theorem Rules.standard_spreadsheet : Rules.spreadsheet.Standard where
  takesName_own := by decide +kernel
  takesNames_own := by decide +kernel
  takesMerges_iff regions := by simp [spreadsheet]
  takesCell_iff c v := by simp [spreadsheet]
  textValue?_eq _ := rfl
  numberValue_of_isFinite _ h := if_pos h
  numberValue_of_not_isFinite _ h := if_neg (by simp [h])
  formulaResult_eq := rfl

variable {rules : Rules} {sheet : Sheet}

/-- The parts of being storable. -/
theorem isStorableSheet_iff (hrules : rules.Standard) :
    rules.isStorableSheet sheet = true ↔
      rules.takesName sheet.name = true ∧
      (∀ region ∈ realMerges sheet, isInside region.first = true ∧ isInside region.last = true) ∧
      (realMerges sheet).Pairwise (fun a b => ¬ a.Overlaps b) ∧
      ∀ e ∈ visibleCells sheet, isInside e.1 = true ∧ isStorable e.2 = true := by
  simp only [Rules.isStorableSheet, Bool.and_eq_true, List.all_eq_true, hrules.takesMerges_iff, hrules.takesCell_iff,
    and_assoc]

/-- What stands within the bounds of a package. -/
theorem isInside_iff {c : Coordinate} : isInside c = true ↔ c.row ≤ maxRow ∧ c.col ≤ maxColumn := by
  rw [isInside, decide_eq_true_eq]

/-- The sheets of a workbook as they are stored: where there are none, an empty one. -/
def storedSheets (workbook : Workbook) : List Sheet :=
  if workbook.sheets = [] then [.new "Sheet1"] else workbook.sheets

/-- The empty sheet that is stored where there is none can be stored. -/
theorem isStorableSheet_new (hrules : rules.Standard) : rules.isStorableSheet (.new "Sheet1") = true :=
  (isStorableSheet_iff hrules).mpr ⟨hrules.takesName_own, nofun, .nil, nofun⟩

/-- When a workbook is stored, and as what. -/
theorem store_eq_ok_iff (hrules : rules.Standard) {workbook : Workbook} {package : Package} :
    rules.store workbook = .ok package ↔
      (∀ sheet ∈ storedSheets workbook, rules.isStorableSheet sheet = true) ∧
        rules.takesNames ((storedSheets workbook).map (·.name)) = true ∧
        package = (storedSheets workbook).map rules.storeSheet := by
  unfold Rules.store storedSheets
  split
  · -- The empty sheet that is stored is itself the stored sheet of an empty one.
    have hstorable : ∀ sheet ∈ [Sheet.new "Sheet1"], rules.isStorableSheet sheet = true :=
      List.forall_mem_singleton.mpr (isStorableSheet_new hrules)
    constructor
    · intro h
      cases h
      exact ⟨hstorable, hrules.takesNames_own, rfl⟩
    · rintro ⟨-, -, rfl⟩
      rfl
  · simp only [Bool.and_eq_true, List.all_eq_true]
    split
    · next h =>
      constructor
      · intro hstored
        cases hstored
        exact ⟨h.1, h.2, rfl⟩
      · rintro ⟨-, -, rfl⟩
        rfl
    · next h =>
      refine iff_of_false (by simp) ?_
      rintro ⟨hall, hdistinct, -⟩
      exact h ⟨hall, hdistinct⟩

/-- The cells that are seen are those with a content that no region suppresses. -/
theorem mem_visibleCells_iff {c : Coordinate} {v : CellValue} :
    (c, v) ∈ visibleCells sheet ↔ sheet.content c = v ∧ v ≠ .empty ∧ ¬ sheet.Suppressed c := by
  rw [visibleCells, List.mem_filter, Cells.mem_entries_iff, and_assoc]
  simp [Sheet.content]

/-- A stored cell stands at the position of its content. -/
theorem position_of_storeCell {c : Coordinate} {v : CellValue} {cell : StoredCell}
    (h : rules.storeCell c v = some cell) : cell.position = c := by
  cases v with
  | empty => cases h
  | text s =>
    obtain ⟨value, -, rfl⟩ := Option.map_eq_some_iff.mp h
    rfl
  | number | boolean | formula => cases h; rfl

/-- A cell is stored for every content that is seen, if there is something to store. -/
theorem mem_cells_storeSheet_iff {cell : StoredCell} :
    cell ∈ (rules.storeSheet sheet).cells ↔
      ¬ sheet.Suppressed cell.position ∧
        rules.storeCell cell.position (sheet.content cell.position) = some cell := by
  simp only [Rules.storeSheet, List.mem_filterMap, Prod.exists, mem_visibleCells_iff]
  constructor
  · rintro ⟨c, v, ⟨rfl, -, hseen⟩, hstored⟩
    obtain rfl := position_of_storeCell hstored
    exact ⟨hseen, hstored⟩
  · rintro ⟨hseen, hstored⟩
    refine ⟨_, _, ⟨rfl, fun hempty => ?_, hseen⟩, hstored⟩
    rw [hempty] at hstored
    cases hstored

/-- No position is stored twice. -/
theorem nodup_positions_storeSheet (rules : Rules) (sheet : Sheet) :
    ((rules.storeSheet sheet).cells.map (·.position)).Nodup := by
  rw [List.Nodup, List.pairwise_map]
  change ((visibleCells sheet).filterMap fun e => rules.storeCell e.1 e.2).Pairwise _
  rw [List.pairwise_filterMap]
  refine (sheet.cells.sorted.filter _).imp fun {e other} hbefore cell hcell cell' hcell' heq => ?_
  rw [position_of_storeCell hcell, position_of_storeCell hcell'] at heq
  exact Coordinate.Before.irrefl _ (heq ▸ hbefore)

/-- Regions without a cell in common differ. -/
theorem nodup_of_pairwise_not_overlaps {regions : List CellRange}
    (h : regions.Pairwise fun a b => ¬ a.Overlaps b) : regions.Nodup := by
  refine h.imp fun {a b} hnot heq => hnot ?_
  subst heq
  exact CellRange.overlaps_iff.mpr ⟨a.anchor, a.anchor_mem, a.anchor_mem⟩

end SheetFill.Package
