import SheetFill.Proofs.Render.Insertions

/-!
# What a render protects

The edits of a render are protected writes and insertions of rows, so that what edits protect
outlives any render. Cells move with `Workbook.finalRow`, and a row that moves past the last one of
the sheet is the only way to lose them.

Main statement: protected cells hold after a render what they held before, and the formulas are the
formulas from before, each at its final row.
-/

namespace SheetFill

/-- Neither the section nor one of its tables overwrites. -/
def Section.NeverOverwrites (desc : Section) : Prop :=
  desc.overwrite = false ∧
    ∀ group ∈ desc.groups, ∀ table, group.repeating = some table → table.isTable = true →
      table.overwrite = false

/-- No sheet holds a cell past the last row. -/
def Workbook.RowsFit (workbook : Workbook) : Prop :=
  ∀ sheet ∈ workbook.sheets, ∀ e ∈ sheet.cells.entries, e.1.row ≤ maxRow

/-- The edits of a section that never overwrites keep contents. -/
theorem Surroundings.keepsContents_of_mem_edits {s : Surroundings} {desc : Section} {data : Tree}
    (hkeeps : desc.NeverOverwrites) {e : Nat × Edit}
    (h : e ∈ (s.steps desc data).flatMap (·.edits desc.overwrite)) : e.2.KeepsContents := by
  rcases of_mem_edits h with ⟨c, datum, hwrite⟩ | ⟨group, hgroup, table, hrepeating, htable, hedit⟩
  · rw [hwrite]
    exact hkeeps.1
  · rcases hedit with ⟨c, datum, hwrite⟩ | ⟨-, start, count, hinsert⟩
    · rw [hwrite]
      exact hkeeps.2 group hgroup table hrepeating htable
    · rw [hinsert]
      trivial

namespace Workbook

variable {workbook : Workbook} {desc : Section} {data : Tree} {rendering : Rendering}

/-- A cell that holds something on a sheet whose rows fit lies in one of them. -/
theorem RowsFit.row_le {i : Nat} {sheet : Sheet} {c : Coordinate} (h : workbook.RowsFit)
    (hsheet : workbook.sheet? i = some sheet) (hfilled : sheet.content c ≠ .empty) : c.row ≤ maxRow :=
  h sheet (List.mem_of_getElem? hsheet) (c, _) (Cells.mem_entries_iff.mpr ⟨rfl, hfilled⟩)

/-- A render gives every sheet edits of its own. They keep contents if the section never overwrites,
and they move rows to their final places. -/
theorem exists_edits_of_render (h : workbook.render desc data = .ok rendering) (i : Nat) :
    ∃ edits, rendering.workbook.sheet? i = (workbook.sheet? i).map (·.editAll edits) ∧
      (desc.NeverOverwrites → ∀ edit ∈ edits, edit.KeepsContents) ∧
      ∀ row, movedRowAll edits row = workbook.finalRow desc data i row := by
  obtain ⟨defaultSheet, hresolve, rfl⟩ := render_eq_ok_iff.mp h
  rw [Rendering.workbook_performAll]
  refine ⟨_, workbook.sheet?_editAll _ i,
    fun hkeeps edit h => Surroundings.keepsContents_of_mem_edits hkeeps (mem_editsOf_iff.mp h), ?_⟩
  intro row
  rw [Step.movedRowAll_flatMap_edits, Surroundings.filterMap_insertion?_steps, finalRow, hresolve]

/-- After a render every sheet is there. Its protected cells hold what they held before, and its
formulas are the formulas from before, at their final rows. Only what moves past the last row is
lost. -/
theorem render_protects (hrows : workbook.RowsFit)
    (hrender : workbook.render desc data = .ok rendering) {i : Nat} {sheet : Sheet}
    (hsheet : workbook.sheet? i = some sheet) :
    ∃ after, rendering.workbook.sheet? i = some after ∧
      (∀ c, sheet.Protected desc.NeverOverwrites c → workbook.finalRow desc data i c.row ≤ maxRow →
        after.content ⟨workbook.finalRow desc data i c.row, c.col⟩ = sheet.content c) ∧
      ∀ c expression, after.content c = .formula expression ↔
        ∃ k, sheet.content k = .formula expression ∧ workbook.finalRow desc data i k.row ≤ maxRow ∧
          c = ⟨workbook.finalRow desc data i k.row, k.col⟩ := by
  obtain ⟨edits, hafter, hkeeps, hfinal⟩ := exists_edits_of_render hrender i
  refine ⟨sheet.editAll edits, by rw [hafter, hsheet, Option.map_some], ?_, ?_⟩
  · intro c hprotected hrow
    rw [← hfinal] at hrow ⊢
    exact Sheet.content_editAll_of_protected hkeeps hprotected hrow
  · intro c expression
    simp only [← hfinal]
    refine Sheet.content_editAll_eq_formula_iff edits fun k hk => hrows.row_le hsheet ?_
    rw [hk]
    simp

/-- A total below a table that inserts two rows, next to a mapping that overwrites: the total moves
down by two. -/
theorem render_protects_total_below_table :
    let sheet : Sheet := (Sheet.new "S").set ⟨2, 1⟩ (.formula "SUM(B2:B2)")
    let workbook : Workbook := ⟨[sheet]⟩
    let table : RepeatingGroup :=
      { startCell := some "A2", insertRows := true, fields := ⟨[("A", "name"), ("B", "age")], by decide⟩ }
    let desc : Section :=
      { template := "t.xlsx", overwrite := true
        mappings := ⟨[("B3", "title"), ("A1", "title")], by decide⟩
        groups := [{ basePath := some "people", repeating := some table }] }
    let data : Tree :=
      .record [("people", .list [.record [("name", .text "Ann")], .record []]),
        ("title", .text "Staff")]
    workbook.RowsFit ∧ workbook.sheet? 0 = some sheet ∧ workbook.finalRow desc data 0 2 = 4 ∧
      ∃ rendering, workbook.render desc data = .ok rendering ∧
        ∃ after, rendering.workbook.sheet? 0 = some after ∧
          (∀ c, sheet.Protected desc.NeverOverwrites c → workbook.finalRow desc data 0 c.row ≤ maxRow →
            after.content ⟨workbook.finalRow desc data 0 c.row, c.col⟩ = sheet.content c) ∧
          ∀ c expression, after.content c = .formula expression ↔
            ∃ k, sheet.content k = .formula expression ∧ workbook.finalRow desc data 0 k.row ≤ maxRow ∧
              c = ⟨workbook.finalRow desc data 0 k.row, k.col⟩ := by
  have hrows : Workbook.RowsFit ⟨[(Sheet.new "S").set ⟨2, 1⟩ (.formula "SUM(B2:B2)")]⟩ := by
    unfold RowsFit
    decide
  exact ⟨hrows, rfl, by rfl, _, rfl, render_protects hrows rfl rfl⟩

end Workbook

end SheetFill
