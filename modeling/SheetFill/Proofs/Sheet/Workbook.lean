import SheetFill.Proofs.Sheet.RowShift

/-!
# Workbooks sheet by sheet

Every change of a workbook is a change of one of its sheets. Which sheet a name means depends on the
names of the sheets alone, and no change of contents or regions touches them.
-/

namespace SheetFill

namespace Workbook

variable (workbook : Workbook)

/-- Changes of one sheet, seen from every sheet. -/
theorem sheet?_modify (i j : Nat) (f : Sheet → Sheet) :
    (workbook.modify i f).sheet? j = if i = j then (workbook.sheet? j).map f else workbook.sheet? j := by
  simp only [modify, sheet?, List.getElem?_modify]
  split <;> simp

/-- There is a sheet at every position up to their number. -/
theorem sheet?_eq_some_of_lt {workbook : Workbook} {i : Nat} (h : i < workbook.sheets.length) :
    workbook.sheet? i = some workbook.sheets[i] ∧ workbook.sheet i = workbook.sheets[i] := by
  have hfound : workbook.sheet? i = some workbook.sheets[i] := List.getElem?_eq_getElem h
  exact ⟨hfound, by rw [sheet, hfound, Option.getD_some]⟩

/-- Workbooks are equal when they have the same sheet at every position. -/
theorem ext_sheet? {a b : Workbook} (h : ∀ i, a.sheet? i = b.sheet? i) : a = b := by
  cases a
  cases b
  simp only [Workbook.mk.injEq]
  exact List.ext_getElem? h

/-- Two changes of one sheet are one change. -/
theorem modify_modify (i : Nat) (f g : Sheet → Sheet) :
    (workbook.modify i f).modify i g = workbook.modify i fun sheet => g (f sheet) := by
  apply ext_sheet?
  intro j
  simp only [sheet?_modify]
  split
  · rw [Option.map_map]
    rfl
  · rfl

/-- Rows inserted within or right below rows just inserted are inserted with them. -/
theorem shiftDown_shiftDown (i : Nat) {start between first second : Nat} (hstart : start ≤ between)
    (hbetween : between ≤ start + first) :
    (workbook.shiftDown i start first).shiftDown i between second =
      workbook.shiftDown i start (first + second) := by
  simp only [shiftDown, modify_modify]
  congr 1
  funext sheet
  exact sheet.shiftDown_shiftDown hstart hbetween

@[simp] theorem shiftDown_zero (i start : Nat) : workbook.shiftDown i start 0 = workbook := by
  apply ext_sheet?
  intro j
  rw [shiftDown, sheet?_modify]
  split
  · simp
  · rfl

/-- A change of a sheet that keeps its name keeps the names. -/
theorem names_modify (i : Nat) {f : Sheet → Sheet} (hname : ∀ sheet, (f sheet).name = sheet.name) :
    (workbook.modify i f).names = workbook.names := by
  simp only [names, modify]
  apply List.ext_getElem?
  intro j
  simp only [List.getElem?_map, List.getElem?_modify]
  split
  · cases workbook.sheets[j]? <;> simp [hname]
  · simp

/-- A sheet that is found is there. -/
theorem lt_of_resolve_eq_ok {workbook : Workbook} {name : Option String} {i : Nat}
    (h : workbook.resolve name = .ok i) : i < workbook.sheets.length := by
  cases name with
  | none =>
    rw [resolve] at h
    split at h
    · cases h
    · next hsheets =>
      cases h
      exact List.length_pos_iff.mpr hsheets
  | some name =>
    rw [resolve] at h
    split at h
    · next hfound =>
      cases h
      exact (List.findIdx?_eq_some_iff_findIdx_eq.mp hfound).1
    · cases h

/-- A name that no sheet has is not found. -/
theorem resolve_of_not_mem {workbook : Workbook} {name : String} (h : name ∉ workbook.names) :
    workbook.resolve (some name) = .error (.unknownSheet name) := by
  have hnone : workbook.sheets.findIdx? (·.name = name) = none := by
    refine List.findIdx?_eq_none_iff.mpr fun sheet hmem => decide_eq_false fun heq => h ?_
    exact List.mem_map.mpr ⟨sheet, hmem, heq⟩
  rw [resolve, hnone]

/-- A name is not found exactly if no sheet has it. -/
theorem exists_resolve_eq_error_iff {workbook : Workbook} {name : String} :
    (∃ fault, workbook.resolve (some name) = .error fault) ↔ name ∉ workbook.names := by
  constructor
  · rintro ⟨fault, hresolve⟩ hmem
    obtain ⟨sheet, hsheet, hname⟩ := List.mem_map.mp hmem
    rw [resolve] at hresolve
    split at hresolve
    · cases hresolve
    · next hnone => exact of_decide_eq_false (List.findIdx?_eq_none_iff.mp hnone sheet hsheet) hname
  · exact fun h => ⟨_, resolve_of_not_mem h⟩

/-- Which sheet a name means depends on the names alone. -/
theorem resolve_congr {a b : Workbook} (h : a.names = b.names) (name : Option String) :
    a.resolve name = b.resolve name := by
  have hlength : a.sheets.length = b.sheets.length := by simpa [names] using congrArg List.length h
  cases name with
  | none =>
    have hempty : a.sheets = [] ↔ b.sheets = [] := by
      rw [← List.length_eq_zero_iff, ← List.length_eq_zero_iff, hlength]
    simp only [resolve, hempty]
  | some name =>
    have hindex (w : Workbook) :
        w.sheets.findIdx? (fun sheet => decide (sheet.name = name)) =
          w.names.findIdx? (fun n => decide (n = name)) := by
      rw [names, List.findIdx?_map]
      rfl
    simp only [resolve, hindex, h]

end Workbook

end SheetFill
