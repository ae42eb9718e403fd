import SheetFill.Proofs.Sheet.Protection
import SheetFill.Proofs.Sheet.RepeatedWrites

/-!
# Which cells writes change

A write changes the cell that it goes to and no other. If all writes to a cell bring the same datum,
the cell holds that datum in the end, unless it is protected: then it holds what it held before.
-/

namespace SheetFill

/-- The edit writes to the cell. -/
def Edit.WritesTo (c : Coordinate) (edit : Edit) : Prop :=
  ∃ overwrite datum, edit = .write overwrite c datum

/-- Edits that write to other cells leave a content alone. -/
theorem contentAfterAll_of_not_writesTo {c : Coordinate} {edits : List Edit}
    (h : ∀ edit ∈ edits, ¬ edit.WritesTo c) (old : CellValue) : contentAfterAll c edits old = old := by
  induction edits with
  | nil => rfl
  | cons edit rest ih =>
    obtain ⟨hfirst, hrest⟩ := List.forall_mem_cons.mp h
    have hkept : edit.contentAfter c old = old := by
      cases edit with
      | insert start count => rfl
      | write overwrite k datum =>
        refine if_neg ?_
        rintro rfl
        exact hfirst ⟨overwrite, datum, rfl⟩
    change contentAfterAll c rest (edit.contentAfter c old) = old
    rw [hkept, ih hrest]

/-- Data for cells are writes. -/
theorem Edit.isWrite_of_mem_writes {overwrite : Bool} {data : List (Coordinate × Tree)} {edit : Edit}
    (h : edit ∈ Edit.writes overwrite data) : edit.IsWrite := by
  obtain ⟨e, -, rfl⟩ := List.mem_map.mp h
  trivial

/-- Data write to the cells that they are for. -/
theorem Edit.exists_mem_of_writesTo {overwrite : Bool} {data : List (Coordinate × Tree)} {edit : Edit}
    {c : Coordinate} (h : edit ∈ Edit.writes overwrite data) (hc : edit.WritesTo c) :
    ∃ datum, (c, datum) ∈ data := by
  obtain ⟨⟨k, datum⟩, hmem, rfl⟩ := List.mem_map.mp h
  obtain ⟨_, _, heq⟩ := hc
  cases heq
  exact ⟨datum, hmem⟩

/-- Writing a datum twice is writing it once. -/
theorem CellValue.afterWrite_afterWrite (overwrite : Bool) (datum : Tree) (old : CellValue) :
    (old.afterWrite overwrite datum).afterWrite overwrite datum = old.afterWrite overwrite datum := by
  have hdatum : datum.cellValue.afterWrite overwrite datum = datum.cellValue := by
    cases hvalue : datum.cellValue with
    | formula expression => rfl
    | empty => exact hvalue
    | text | number | boolean => cases overwrite <;> simp [afterWrite, hvalue]
  cases old <;> cases overwrite <;> first | exact hdatum | rfl

/-- If all writes to a cell bring the same datum, they are one write. -/
theorem contentAfterAll_writes {c : Coordinate} {datum : Tree} {overwrite : Bool}
    {data : List (Coordinate × Tree)} (hmem : (c, datum) ∈ data)
    (hsame : ∀ other, (c, other) ∈ data → other = datum) (old : CellValue) :
    contentAfterAll c (Edit.writes overwrite data) old = old.afterWrite overwrite datum := by
  induction data generalizing old with
  | nil => cases hmem
  | cons e rest ih =>
    obtain ⟨k, first⟩ := e
    have hrest : ∀ other, (c, other) ∈ rest → other = datum := fun other h =>
      hsame other (List.mem_cons_of_mem _ h)
    change contentAfterAll c (Edit.writes overwrite rest)
      (Edit.contentAfter c (.write overwrite k first) old) = _
    by_cases hk : c = k
    · subst hk
      obtain rfl := hsame first (List.mem_cons_self ..)
      rw [Edit.contentAfter, if_pos rfl]
      -- A later write of the datum finds it there already.
      by_cases hlater : (c, first) ∈ rest
      · rw [ih hlater hrest, CellValue.afterWrite_afterWrite]
      · refine contentAfterAll_of_not_writesTo (fun edit hedit hwrites => hlater ?_) _
        obtain ⟨other, hother⟩ := Edit.exists_mem_of_writesTo hedit hwrites
        rwa [hrest other hother] at hother
    · have hlater : (c, datum) ∈ rest := by
        rcases List.mem_cons.mp hmem with h | h
        · cases h
          exact absurd rfl hk
        · exact h
      rw [Edit.contentAfter, if_neg hk, ih hlater hrest]

namespace Sheet

variable {sheet : Sheet} {c : Coordinate} {overwrite : Bool} {data : List (Coordinate × Tree)}

/-- Data leave a protected cell alone. -/
theorem content_editAll_writes_of_protected (h : sheet.Protected (overwrite = false) c) :
    (sheet.editAll (Edit.writes overwrite data)).content c = sheet.content c := by
  rw [content_editAll fun edit => Edit.isWrite_of_mem_writes]
  split
  · rfl
  · next hsuppressed =>
    rcases h with hformula | hcovered | ⟨rfl, hfilled⟩
    · cases hold : sheet.content c with
      | formula expression => exact contentAfterAll_formula expression
      | empty | text | number | boolean =>
        rw [hold] at hformula
        cases hformula
    · exact absurd hcovered hsuppressed
    · refine contentAfterAll_of_not_replaces ?_ hfilled
      rintro _ hedit ⟨datum, rfl⟩
      obtain ⟨e, -, heq⟩ := List.mem_map.mp hedit
      cases heq

/-- A cell that is not protected takes the datum that is for it. -/
theorem content_editAll_writes_of_not_protected {datum : Tree} (hmem : (c, datum) ∈ data)
    (hsame : ∀ other, (c, other) ∈ data → other = datum) (h : ¬ sheet.Protected (overwrite = false) c) :
    (sheet.editAll (Edit.writes overwrite data)).content c = datum.cellValue := by
  obtain ⟨hformula, hsuppressed, hkept⟩ : (sheet.content c).isFormula = false ∧ ¬ sheet.Suppressed c ∧
      ¬ (overwrite = false ∧ sheet.content c ≠ .empty) := by
    simpa [Protected] using h
  rw [content_editAll fun edit => Edit.isWrite_of_mem_writes, if_neg hsuppressed,
    contentAfterAll_writes hmem hsame]
  cases overwrite with
  | true => exact CellValue.afterWrite_of_not_formula datum hformula
  | false =>
    have hempty : sheet.content c = .empty := not_not.mp fun hfilled => hkept ⟨rfl, hfilled⟩
    rw [hempty]
    rfl

end Sheet

namespace Workbook

/-- Writes keep the merged regions of all sheets. -/
theorem merges_editAll {edits : List (Nat × Edit)} (hwrites : ∀ e ∈ edits, e.2.IsWrite)
    (workbook : Workbook) :
    (workbook.editAll edits).sheets.map (·.merges) = workbook.sheets.map (·.merges) := by
  apply List.ext_getElem?
  intro i
  have hsheet := workbook.sheet?_editAll edits i
  unfold sheet? at hsheet
  rw [List.getElem?_map, List.getElem?_map, hsheet, Option.map_map]
  congr 1
  funext sheet
  exact sheet.merges_editAll fun edit hmem => hwrites (i, edit) (mem_editsOf_iff.mp hmem)

/-- Writes that do not go to a cell leave its content alone. -/
theorem content_editAll_of_not_writesTo {edits : List (Nat × Edit)} (hwrites : ∀ e ∈ edits, e.2.IsWrite)
    {i : Nat} {c : Coordinate} (h : ∀ edit, (i, edit) ∈ edits → ¬ edit.WritesTo c) (workbook : Workbook) :
    (workbook.editAll edits).content i c = workbook.content i c := by
  unfold content sheet
  rw [sheet?_editAll]
  cases workbook.sheet? i with
  | none => rfl
  | some sheet =>
    have hsheet : ∀ edit ∈ editsOf i edits, edit.IsWrite := fun edit hmem =>
      hwrites (i, edit) (mem_editsOf_iff.mp hmem)
    simp only [Option.map_some, Option.getD_some]
    have hother : ∀ edit ∈ editsOf i edits, ¬ edit.WritesTo c := fun edit hmem =>
      h edit (mem_editsOf_iff.mp hmem)
    rw [Sheet.content_editAll hsheet, contentAfterAll_of_not_writesTo hother]
    split <;> rfl

/-- Edits of one sheet, seen from its cells. -/
theorem content_editAll_map {workbook : Workbook} {i : Nat} {sheet : Sheet}
    (hsheet : workbook.sheet? i = some sheet) (edits : List Edit) (c : Coordinate) :
    (workbook.editAll (edits.map fun edit => (i, edit))).content i c = (sheet.editAll edits).content c := by
  rw [content, Workbook.sheet, sheet?_editAll, hsheet, editsOf_map, if_pos rfl]
  rfl

section Data

variable {workbook : Workbook} {i : Nat} {c : Coordinate} {overwrite : Bool} {data : List (Coordinate × Tree)}

/-- Data for a sheet are writes. -/
theorem isWrite_of_mem_map_writes (i : Nat) (overwrite : Bool) (data : List (Coordinate × Tree)) :
    ∀ e ∈ (Edit.writes overwrite data).map fun edit => (i, edit), e.2.IsWrite := by
  intro e he
  obtain ⟨edit, hedit, rfl⟩ := List.mem_map.mp he
  exact Edit.isWrite_of_mem_writes hedit

/-- Data leave a protected cell alone. -/
theorem content_editAll_data_of_protected (hsheet : i < workbook.sheets.length)
    (h : (workbook.sheet i).Protected (overwrite = false) c) :
    (workbook.editAll ((Edit.writes overwrite data).map fun edit => (i, edit))).content i c =
      workbook.content i c := by
  obtain ⟨hfound, hsame⟩ := sheet?_eq_some_of_lt hsheet
  rw [content_editAll_map hfound, Sheet.content_editAll_writes_of_protected (hsame ▸ h), content, hsame]

/-- A cell that is not protected takes the datum that is for it. -/
theorem content_editAll_data_of_not_protected (hsheet : i < workbook.sheets.length) {datum : Tree}
    (hmem : (c, datum) ∈ data) (hsame : ∀ other, (c, other) ∈ data → other = datum)
    (h : ¬ (workbook.sheet i).Protected (overwrite = false) c) :
    (workbook.editAll ((Edit.writes overwrite data).map fun edit => (i, edit))).content i c =
      datum.cellValue := by
  obtain ⟨hfound, heq⟩ := sheet?_eq_some_of_lt hsheet
  rw [content_editAll_map hfound]
  exact Sheet.content_editAll_writes_of_not_protected hmem hsame (heq ▸ h)

/-- A cell that no datum is for keeps its content. -/
theorem content_editAll_data_of_not_mem {j : Nat} (h : j = i → ∀ datum, (c, datum) ∉ data) :
    (workbook.editAll ((Edit.writes overwrite data).map fun edit => (i, edit))).content j c =
      workbook.content j c := by
  refine content_editAll_of_not_writesTo (isWrite_of_mem_map_writes i overwrite data) ?_ workbook
  intro edit hmem hedit
  obtain ⟨edit, hwrite, heq⟩ := List.mem_map.mp hmem
  cases heq
  obtain ⟨datum, hdatum⟩ := Edit.exists_mem_of_writesTo hwrite hedit
  exact h rfl datum hdatum

end Data

end Workbook

end SheetFill
