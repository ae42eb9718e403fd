import SheetFill.Proofs.Sheet.Edit

/-!
# What edits protect

Three kinds of cells keep their content through every edit, at the row to which inserted rows move
them: formulas, cells that a merged region covers, and, where nothing overwrites, cells that hold
something. Being protected moves along with the row, so that the lemma of one edit carries through a
whole row of them. In the same way the formulas after edits are exactly the formulas before, as long
as their rows stay on the sheet.
-/

namespace SheetFill

namespace Edit

/-- Where an edit moves a row. -/
def movedRow : Edit → Nat → Nat
  | write _ _ _, row => row
  | insert start count, row => Cells.movedRow start count row

/-- The edit overwrites nothing. -/
def KeepsContents : Edit → Prop
  | write overwrite _ _ => overwrite = false
  | insert _ _ => True

theorem le_movedRow (edit : Edit) (row : Nat) : row ≤ edit.movedRow row := by
  cases edit with
  | write overwrite c datum => exact Nat.le_refl row
  | insert start count => exact Cells.le_movedRow start count row

end Edit

/-- Where edits move a row, one after the other. -/
def movedRowAll (edits : List Edit) (row : Nat) : Nat :=
  edits.foldl (fun row edit => edit.movedRow row) row

@[simp] theorem movedRowAll_cons (edit : Edit) (rest : List Edit) (row : Nat) :
    movedRowAll (edit :: rest) row = movedRowAll rest (edit.movedRow row) := rfl

theorem movedRowAll_append (first second : List Edit) (row : Nat) :
    movedRowAll (first ++ second) row = movedRowAll second (movedRowAll first row) :=
  List.foldl_append

/-- Edits move no row up. -/
theorem le_movedRowAll (edits : List Edit) (row : Nat) : row ≤ movedRowAll edits row := by
  induction edits generalizing row with
  | nil => exact Nat.le_refl row
  | cons edit rest ih => exact Nat.le_trans (edit.le_movedRow row) (ih _)

/-- Writes move no row. -/
theorem movedRowAll_writes (overwrite : Bool) (data : List (Coordinate × Tree)) (row : Nat) :
    movedRowAll (Edit.writes overwrite data) row = row := by
  induction data with
  | nil => rfl
  | cons e rest ih => exact ih

namespace Sheet

/-- A cell that edits leave alone: a formula, a covered cell, or, if nothing overwrites, a cell that
holds something. -/
def Protected (sheet : Sheet) (kept : Prop) (c : Coordinate) : Prop :=
  (sheet.content c).isFormula = true ∨ sheet.Suppressed c ∨ (kept ∧ sheet.content c ≠ .empty)

/-- One edit leaves a protected cell its content, at the row to which it moves. -/
theorem content_apply_of_protected {sheet : Sheet} {kept : Prop} {c : Coordinate} {edit : Edit}
    (hkeeps : kept → edit.KeepsContents) (hprotected : sheet.Protected kept c)
    (hrow : edit.movedRow c.row ≤ maxRow) :
    (edit.apply sheet).content ⟨edit.movedRow c.row, c.col⟩ = sheet.content c := by
  cases edit with
  | insert start count =>
    rw [Edit.apply, content_shiftDown]
    exact sheet.cells.content_shiftDown_moved hrow
  | write overwrite k datum =>
    change (sheet.write overwrite k datum).content c = sheet.content c
    rw [content_write]
    split
    · next hwritten =>
      obtain ⟨rfl, hfree⟩ := hwritten
      rcases hprotected with hformula | hsuppressed | ⟨hkept, hfilled⟩
      · cases hold : sheet.content c with
        | formula expression => rfl
        | empty | text | number | boolean =>
          rw [hold] at hformula
          cases hformula
      · exact absurd hsuppressed hfree
      · obtain rfl : overwrite = false := hkeeps hkept
        exact CellValue.afterWrite_of_ne_empty datum hfilled
    · rfl

/-- One edit leaves a protected cell protected. -/
theorem protected_apply {sheet : Sheet} {kept : Prop} {c : Coordinate} {edit : Edit}
    (hkeeps : kept → edit.KeepsContents) (hprotected : sheet.Protected kept c)
    (hrow : edit.movedRow c.row ≤ maxRow) :
    (edit.apply sheet).Protected kept ⟨edit.movedRow c.row, c.col⟩ := by
  unfold Protected
  rw [content_apply_of_protected hkeeps hprotected hrow]
  rcases hprotected with hformula | hsuppressed | hfilled
  · exact .inl hformula
  · refine .inr (.inl ?_)
    cases edit with
    | insert start count => exact (sheet.suppressed_shiftDown hrow).mpr hsuppressed
    | write overwrite k datum => exact (sheet.suppressed_write overwrite k c datum).mpr hsuppressed
  · exact .inr (.inr hfilled)

/-- Edits leave a protected cell its content, at the row to which they move it. -/
theorem content_editAll_of_protected {sheet : Sheet} {kept : Prop} {c : Coordinate} {edits : List Edit}
    (hkeeps : kept → ∀ edit ∈ edits, edit.KeepsContents) (hprotected : sheet.Protected kept c)
    (hrow : movedRowAll edits c.row ≤ maxRow) :
    (sheet.editAll edits).content ⟨movedRowAll edits c.row, c.col⟩ = sheet.content c := by
  induction edits generalizing sheet c with
  | nil => rfl
  | cons edit rest ih =>
    have hfirst : kept → edit.KeepsContents := fun h => hkeeps h edit List.mem_cons_self
    have hrest : kept → ∀ e ∈ rest, e.KeepsContents := fun h e he => hkeeps h e (List.mem_cons_of_mem _ he)
    have hmoved : edit.movedRow c.row ≤ maxRow := Nat.le_trans (le_movedRowAll rest _) hrow
    rw [movedRowAll_cons, editAll_cons]
    calc ((edit.apply sheet).editAll rest).content ⟨movedRowAll rest (edit.movedRow c.row), c.col⟩
        = (edit.apply sheet).content ⟨edit.movedRow c.row, c.col⟩ :=
          ih hrest (protected_apply hfirst hprotected hmoved) hrow
      _ = sheet.content c := content_apply_of_protected hfirst hprotected hmoved

/-- The formulas after one edit are the formulas before, in the rows to which they moved. -/
theorem content_apply_eq_formula_iff {sheet : Sheet} {expression : String} {c : Coordinate} (edit : Edit)
    (hrows : ∀ k, sheet.content k = .formula expression → k.row ≤ maxRow) :
    (edit.apply sheet).content c = .formula expression ↔
      ∃ k, sheet.content k = .formula expression ∧ edit.movedRow k.row ≤ maxRow ∧
        c = ⟨edit.movedRow k.row, k.col⟩ := by
  cases edit with
  | insert start count =>
    rw [Edit.apply, content_shiftDown]
    exact Cells.content_shiftDown_eq_iff (by simp) hrows
  | write overwrite k datum =>
    have hsame : (sheet.write overwrite k datum).content c = .formula expression ↔
        sheet.content c = .formula expression := by
      rw [content_write]
      split
      · next hwritten =>
        rw [hwritten.1]
        exact CellValue.afterWrite_eq_formula_iff
      · rfl
    rw [Edit.apply, hsame]
    constructor
    · intro h
      exact ⟨c, h, hrows c h, rfl⟩
    · rintro ⟨k, h, -, rfl⟩
      exact h

/-- The formulas after edits are the formulas before, in the rows to which they moved. -/
theorem content_editAll_eq_formula_iff {sheet : Sheet} {expression : String} {c : Coordinate}
    (edits : List Edit) (hrows : ∀ k, sheet.content k = .formula expression → k.row ≤ maxRow) :
    (sheet.editAll edits).content c = .formula expression ↔
      ∃ k, sheet.content k = .formula expression ∧ movedRowAll edits k.row ≤ maxRow ∧
        c = ⟨movedRowAll edits k.row, k.col⟩ := by
  induction edits generalizing sheet with
  | nil =>
    constructor
    · intro h
      exact ⟨c, h, hrows c h, rfl⟩
    · rintro ⟨k, h, -, rfl⟩
      exact h
  | cons edit rest ih =>
    have happlied : ∀ k, (edit.apply sheet).content k = .formula expression → k.row ≤ maxRow := by
      intro k hk
      obtain ⟨_, -, hrow, rfl⟩ := (content_apply_eq_formula_iff edit hrows).mp hk
      exact hrow
    rw [editAll_cons, ih happlied]
    constructor
    · rintro ⟨_, hk, hrow, rfl⟩
      obtain ⟨k, hold, -, rfl⟩ := (content_apply_eq_formula_iff edit hrows).mp hk
      exact ⟨k, hold, hrow, rfl⟩
    · rintro ⟨k, hk, hrow, rfl⟩
      have hmoved : edit.movedRow k.row ≤ maxRow := Nat.le_trans (le_movedRowAll rest _) hrow
      exact ⟨_, (content_apply_eq_formula_iff edit hrows).mpr ⟨k, hk, hmoved, rfl⟩, hrow, rfl⟩

end Sheet

end SheetFill
