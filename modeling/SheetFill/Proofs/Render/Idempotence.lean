import SheetFill.Proofs.Render.Edits
import SheetFill.Proofs.Sheet.RepeatedWrites

/-!
# Rendering twice

Which steps a section has depends on the names of the sheets alone, and a render keeps them. A
second render with the same data therefore repeats the edits of the first one, and writes that are
repeated change nothing.

Main statement: a section that inserts no rows can be rendered a second time; the workbook stays as
the first render left it, and flat fields and warnings are the same.
-/

namespace SheetFill

/-- No table of the section inserts rows. -/
def Section.InsertsNoRows (desc : Section) : Prop :=
  ∀ group ∈ desc.groups, ∀ table, group.repeating = some table → table.isTable = true →
    table.insertRows = false

/-- The edits of a section that inserts no rows only write. -/
theorem Surroundings.isWrite_of_mem_edits {s : Surroundings} {desc : Section} {data : Tree}
    (hinserts : desc.InsertsNoRows) {e : Nat × Edit}
    (h : e ∈ (s.steps desc data).flatMap (·.edits desc.overwrite)) : e.2.IsWrite := by
  rcases of_mem_edits h with ⟨c, datum, hwrite⟩ | ⟨group, hgroup, table, hrepeating, htable, hedit⟩
  · rw [hwrite]
    trivial
  · rcases hedit with ⟨c, datum, hwrite⟩ | ⟨hinsert, -⟩
    · rw [hwrite]
      trivial
    · rw [hinserts group hgroup table hrepeating htable] at hinsert
      cases hinsert

/-- A second render of a section that inserts no rows succeeds, leaves every sheet as the first one
left it, and reports the same flat fields and warnings. -/
theorem Workbook.render_render {workbook : Workbook} {desc : Section} {data : Tree} {first : Rendering}
    (hinserts : desc.InsertsNoRows) (hfirst : workbook.render desc data = .ok first) :
    ∃ second, first.workbook.render desc data = .ok second ∧ second.workbook = first.workbook ∧
      second.report.flatFields = first.report.flatFields ∧
      second.report.warnings = first.report.warnings := by
  have hnames := names_of_render hfirst
  obtain ⟨sheet, hresolve, rfl⟩ := render_eq_ok_iff.mp hfirst
  -- Both renders carry out the same steps.
  have hsteps := Surroundings.steps_congr hnames sheet
  rw [← resolve_congr hnames] at hresolve
  refine ⟨_, render_eq_ok_iff.mpr ⟨sheet, hresolve, rfl⟩, ?_, ?_, ?_⟩
  · rw [hsteps, Rendering.workbook_performAll, Rendering.workbook_performAll]
    exact editAll_editAll (fun e he => Surroundings.isWrite_of_mem_edits hinserts he) _
  · rw [hsteps, Rendering.flatFields_performAll, Rendering.flatFields_performAll]
  · rw [hsteps, Rendering.warnings_performAll, Rendering.warnings_performAll]

/-- A cell that a mapping clears, and that a later range and an overwriting table fill again. -/
theorem Workbook.render_render_cleared_cell :
    let table : RepeatingGroup := { startCell := some "A1", fields := ⟨[("A", "name")], by decide⟩ }
    let desc : Section :=
      { template := "t.xlsx", overwrite := true
        mappings := ⟨[("A1", "absent"), ("A1:B2", "names")], by decide⟩
        groups := [{ basePath := some "people", repeating := some table }] }
    let data : Tree :=
      .record [("names", .list [.null, .text "x", .text "7"]),
        ("people", .list [.record [("name", .text "Ann")]])]
    let workbook : Workbook := ⟨[(Sheet.new "S").set ⟨0, 0⟩ (.text "old")]⟩
    desc.InsertsNoRows ∧
      ∃ first, workbook.render desc data = .ok first ∧
        ∃ second, first.workbook.render desc data = .ok second ∧ second.workbook = first.workbook ∧
          second.report.flatFields = first.report.flatFields ∧
          second.report.warnings = first.report.warnings := by
  intro table desc data workbook
  have hinserts : desc.InsertsNoRows := by
    intro group hgroup found hrepeating _
    obtain rfl := List.mem_singleton.mp hgroup
    cases hrepeating
    rfl
  have hfirst : workbook.render desc data = .ok _ := rfl
  exact ⟨hinserts, _, hfirst, render_render hinserts hfirst⟩

end SheetFill
