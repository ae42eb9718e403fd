import SheetFill.Proofs.Sheet.Edit

/-!
# Writes that are repeated

Without inserted rows every coordinate sees a fixed row of writes, and each of them keeps the
content, replaces it, or fills it if it is empty. Either some write replaces, and then the old
content does not matter any more; or none does, and then a content that is there stays. In both
cases the writes change nothing when they are repeated.
-/

namespace SheetFill

namespace Edit

/-- The edit is a write. -/
def IsWrite : Edit → Prop
  | write _ _ _ => True
  | insert _ _ => False

/-- What an edit makes of the content of a coordinate that no merged region covers. -/
def contentAfter (c : Coordinate) : Edit → CellValue → CellValue
  | write overwrite k datum, old => if c = k then old.afterWrite overwrite datum else old
  | insert _ _, old => old

/-- The edit replaces what a coordinate holds. -/
def Replaces (c : Coordinate) (edit : Edit) : Prop :=
  ∃ datum, edit = write true c datum

/-- An edit makes no formula. -/
theorem isFormula_contentAfter (c : Coordinate) (edit : Edit) {old : CellValue} (h : old.isFormula = false) :
    (edit.contentAfter c old).isFormula = false := by
  cases edit with
  | write overwrite k datum =>
    simp only [contentAfter]
    split
    · cases old <;> cases overwrite <;> first | exact datum.isFormula_cellValue | exact h
    · exact h
  | insert start count => exact h

end Edit

/-- What edits make of the content of a coordinate that no merged region covers. -/
def contentAfterAll (c : Coordinate) (edits : List Edit) (old : CellValue) : CellValue :=
  edits.foldl (fun value edit => edit.contentAfter c value) old

section ContentAfterAll

variable {c : Coordinate} {edits : List Edit}

/-- A formula stays. -/
theorem contentAfterAll_formula (expression : String) :
    contentAfterAll c edits (.formula expression) = .formula expression := by
  induction edits with
  | nil => rfl
  | cons edit rest ih =>
    have hkept : edit.contentAfter c (.formula expression) = .formula expression := by
      cases edit with
      | write overwrite k datum => simp [Edit.contentAfter]
      | insert start count => rfl
    change contentAfterAll c rest (edit.contentAfter c _) = _
    rw [hkept, ih]

/-- Edits make no formula. -/
theorem isFormula_contentAfterAll {old : CellValue} (h : old.isFormula = false) :
    (contentAfterAll c edits old).isFormula = false := by
  induction edits generalizing old with
  | nil => exact h
  | cons edit rest ih => exact ih (edit.isFormula_contentAfter c h)

/-- Once a write replaces, the old content does not matter. -/
theorem contentAfterAll_eq_of_replaces (hreplaces : ∃ edit ∈ edits, edit.Replaces c) {old other : CellValue}
    (hold : old.isFormula = false) (hother : other.isFormula = false) :
    contentAfterAll c edits old = contentAfterAll c edits other := by
  induction edits generalizing old other with
  | nil =>
    obtain ⟨edit, hmem, -⟩ := hreplaces
    cases hmem
  | cons edit rest ih =>
    by_cases hrest : ∃ edit ∈ rest, edit.Replaces c
    · exact ih hrest (edit.isFormula_contentAfter c hold) (edit.isFormula_contentAfter c hother)
    · -- The first edit is the one that replaces: after it both contents are its datum.
      obtain ⟨replacing, hmem, datum, rfl⟩ := hreplaces
      rcases List.mem_cons.mp hmem with rfl | hmem
      · change contentAfterAll c rest (Edit.contentAfter c _ old) =
          contentAfterAll c rest (Edit.contentAfter c _ other)
        simp only [Edit.contentAfter, if_true]
        rw [CellValue.afterWrite_of_not_formula datum hold,
          CellValue.afterWrite_of_not_formula datum hother]
      · exact absurd ⟨_, hmem, datum, rfl⟩ hrest

/-- As long as no write replaces, a content that is there stays. -/
theorem contentAfterAll_of_not_replaces (hkeeps : ∀ edit ∈ edits, ¬ edit.Replaces c) {old : CellValue}
    (hold : old ≠ .empty) : contentAfterAll c edits old = old := by
  induction edits with
  | nil => rfl
  | cons edit rest ih =>
    obtain ⟨hfirst, hrest⟩ := List.forall_mem_cons.mp hkeeps
    have hkept : edit.contentAfter c old = old := by
      cases edit with
      | insert start count => rfl
      | write overwrite k datum =>
        simp only [Edit.contentAfter]
        split
        · next hk =>
          subst hk
          cases overwrite with
          | false => exact CellValue.afterWrite_of_ne_empty datum hold
          | true => exact absurd ⟨datum, rfl⟩ hfirst
        · rfl
    change contentAfterAll c rest (edit.contentAfter c old) = old
    rw [hkept, ih hrest]

/-- Repeating edits on the content they made changes nothing. -/
theorem contentAfterAll_contentAfterAll (old : CellValue) :
    contentAfterAll c edits (contentAfterAll c edits old) = contentAfterAll c edits old := by
  by_cases hreplaces : ∃ edit ∈ edits, edit.Replaces c
  · cases hold : old.isFormula with
    | true =>
      cases old with
      | formula expression => rw [contentAfterAll_formula, contentAfterAll_formula]
      | empty | text | number | boolean => cases hold
    | false => exact contentAfterAll_eq_of_replaces hreplaces (isFormula_contentAfterAll hold) hold
  · have hkeeps : ∀ edit ∈ edits, ¬ edit.Replaces c := fun edit hmem h => hreplaces ⟨edit, hmem, h⟩
    by_cases hnew : contentAfterAll c edits old = .empty
    · by_cases hold : old = .empty
      · rw [hold] at hnew ⊢
        rw [hnew, hnew]
      · rw [contentAfterAll_of_not_replaces hkeeps hold, contentAfterAll_of_not_replaces hkeeps hold]
    · exact contentAfterAll_of_not_replaces hkeeps hnew

end ContentAfterAll

namespace Sheet

variable {edits : List Edit}

/-- Writes leave the merged regions alone. -/
theorem merges_editAll (hwrites : ∀ edit ∈ edits, edit.IsWrite) (sheet : Sheet) :
    (sheet.editAll edits).merges = sheet.merges := by
  induction edits generalizing sheet with
  | nil => rfl
  | cons edit rest ih =>
    obtain ⟨hfirst, hrest⟩ := List.forall_mem_cons.mp hwrites
    cases edit with
    | write overwrite c datum => rw [editAll_cons, ih hrest, Edit.apply, merges_write]
    | insert start count => cases hfirst

/-- Writes cover and uncover nothing. -/
theorem suppressed_editAll (hwrites : ∀ edit ∈ edits, edit.IsWrite) (sheet : Sheet) (c : Coordinate) :
    (sheet.editAll edits).Suppressed c ↔ sheet.Suppressed c := by
  unfold Suppressed region?
  rw [merges_editAll hwrites]

/-- What writes make of a sheet, seen from every coordinate. -/
theorem content_editAll (hwrites : ∀ edit ∈ edits, edit.IsWrite) (sheet : Sheet) (c : Coordinate) :
    (sheet.editAll edits).content c =
      if sheet.Suppressed c then sheet.content c else contentAfterAll c edits (sheet.content c) := by
  induction edits generalizing sheet with
  | nil => simp [contentAfterAll]
  | cons edit rest ih =>
    obtain ⟨hfirst, hrest⟩ := List.forall_mem_cons.mp hwrites
    cases edit with
    | insert start count => cases hfirst
    | write overwrite k datum =>
      rw [editAll_cons, ih hrest, Edit.apply]
      simp only [suppressed_write, content_write]
      by_cases hsuppressed : sheet.Suppressed c
      · rw [if_pos hsuppressed, if_pos hsuppressed, if_neg]
        rintro ⟨rfl, h⟩
        exact h hsuppressed
      · rw [if_neg hsuppressed, if_neg hsuppressed]
        change contentAfterAll c rest _ = contentAfterAll c rest (Edit.contentAfter c _ _)
        congr 1
        unfold Edit.contentAfter
        by_cases hk : c = k
        · subst hk
          simp [hsuppressed]
        · simp [hk]

/-- Writes change nothing when they are repeated. -/
theorem editAll_editAll (hwrites : ∀ edit ∈ edits, edit.IsWrite) (sheet : Sheet) :
    (sheet.editAll edits).editAll edits = sheet.editAll edits := by
  apply ext_content
  · simp
  · rw [merges_editAll hwrites]
  · intro c
    rw [content_editAll hwrites, content_editAll hwrites]
    simp only [suppressed_editAll hwrites]
    by_cases hsuppressed : sheet.Suppressed c
    · simp [hsuppressed]
    · simp only [if_neg hsuppressed]
      exact contentAfterAll_contentAfterAll _

end Sheet

/-- Writes of a workbook change nothing when they are repeated. -/
theorem Workbook.editAll_editAll {edits : List (Nat × Edit)} (hwrites : ∀ e ∈ edits, e.2.IsWrite)
    (workbook : Workbook) : (workbook.editAll edits).editAll edits = workbook.editAll edits := by
  apply ext_sheet?
  intro i
  have hsheet : ∀ edit ∈ editsOf i edits, edit.IsWrite := fun edit hmem =>
    hwrites (i, edit) (mem_editsOf_iff.mp hmem)
  rw [sheet?_editAll, sheet?_editAll, Option.map_map]
  congr 1
  funext sheet
  exact sheet.editAll_editAll hsheet

end SheetFill
