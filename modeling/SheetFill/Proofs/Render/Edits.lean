import SheetFill.Proofs.Render.Steps
import SheetFill.Proofs.Sheet.Edit

/-!
# What the steps of a section leave behind

A step of rendering leaves three things: edits of the workbook, flat fields, and warnings. None of
them depends on what the sheets hold. A render is therefore described by three lists that can be
computed before it starts: `Step.edits`, `Step.fields` and `Step.warnings` of its steps.
-/

namespace SheetFill

namespace Step

/-- The edits of a step; `overwrite` is the section's. -/
def edits (overwrite : Bool) : Step → List (Nat × Edit)
  | cell sheet c datum => [(sheet, .write overwrite c datum)]
  | range _ sheet target value =>
    (Edit.writes overwrite (target.assign value)).map fun edit => (sheet, edit)
  | table group dialect items sheet row =>
    let count := group.roomFor row items.length
    let room := if group.insertRows then [Edit.insert row count] else []
    (room ++ Edit.writes group.overwrite (group.tableData dialect row (items.take count))).map
      fun edit => (sheet, edit)
  | field _ _ | warn _ => []

/-- The flat fields that a step sets. -/
def fields : Step → List (String × String)
  | field name text => [(name, text)]
  | cell _ _ _ | range _ _ _ _ | table _ _ _ _ _ | warn _ => []

/-- The warnings that a step gives. -/
def warnings : Step → List Warning
  | range name _ target value => Rendering.truncatedWarnings name target (target.overflow value)
  | table group dialect items _ row => group.tableWarnings dialect items row
  | warn warning => [warning]
  | cell _ _ _ | field _ _ => []

/-- An edit of a step is a write under the overwriting of the section or of a table, or the room that
a table makes. -/
theorem of_mem_edits {overwrite : Bool} {step : Step} {e : Nat × Edit} (h : e ∈ step.edits overwrite) :
    (∃ c datum, e.2 = .write overwrite c datum) ∨
      ∃ group dialect items sheet row, step = .table group dialect items sheet row ∧
        ((∃ c datum, e.2 = .write group.overwrite c datum) ∨
          group.insertRows = true ∧ ∃ start count, e.2 = .insert start count) := by
  cases step with
  | cell sheet c datum =>
    obtain rfl := List.mem_singleton.mp h
    exact .inl ⟨c, datum, rfl⟩
  | range target sheet range value =>
    obtain ⟨_, hmem, rfl⟩ := List.mem_map.mp h
    obtain ⟨⟨c, datum⟩, -, rfl⟩ := List.mem_map.mp hmem
    exact .inl ⟨c, datum, rfl⟩
  | table group dialect items sheet row =>
    refine .inr ⟨group, dialect, items, sheet, row, rfl, ?_⟩
    obtain ⟨_, hmem, rfl⟩ := List.mem_map.mp h
    rcases List.mem_append.mp hmem with hroom | hwrite
    · split at hroom
      · next hinsert =>
        obtain rfl := List.mem_singleton.mp hroom
        exact .inr ⟨hinsert, _, _, rfl⟩
      · cases hroom
    · obtain ⟨⟨c, datum⟩, -, rfl⟩ := List.mem_map.mp hwrite
      exact .inl ⟨c, datum, rfl⟩
  | field name text => cases h
  | warn warning => cases h

end Step

/-- An edit of a section is a write under the overwriting of the section or of one of its tables, or
the room that such a table makes. -/
theorem Surroundings.of_mem_edits {s : Surroundings} {desc : Section} {data : Tree} {e : Nat × Edit}
    (h : e ∈ (s.steps desc data).flatMap (·.edits desc.overwrite)) :
    (∃ c datum, e.2 = .write desc.overwrite c datum) ∨
      ∃ group ∈ desc.groups, ∃ table, group.repeating = some table ∧ table.isTable = true ∧
        ((∃ c datum, e.2 = .write table.overwrite c datum) ∨
          table.insertRows = true ∧ ∃ start count, e.2 = .insert start count) := by
  obtain ⟨step, hstep, hmem⟩ := List.mem_flatMap.mp h
  rcases Step.of_mem_edits hmem with hwrite | ⟨table, dialect, items, sheet, row, rfl, hedit⟩
  · exact .inl hwrite
  · obtain ⟨group, hgroup, hrepeating, htable⟩ := exists_group_of_table_mem_steps hstep
    exact .inr ⟨group, hgroup, table, hrepeating, htable, hedit⟩

namespace Rendering

/-- A step changes the workbook by its edits. -/
theorem workbook_perform (overwrite : Bool) (r : Rendering) (step : Step) :
    (r.perform overwrite step).workbook = r.workbook.editAll (step.edits overwrite) := by
  cases step with
  | cell sheet c datum => exact r.workbook.write_eq_modify sheet overwrite c datum
  | range target sheet range value => exact Workbook.fst_writeAll sheet overwrite _ _
  | table group dialect items sheet row =>
    change (group.expandAt dialect items sheet row r.workbook).workbook = _
    rw [group.expandAt_eq]
    dsimp only
    rw [Workbook.fst_writeAll, Step.edits, List.map_append, Workbook.editAll_append]
    cases hinsert : group.insertRows with
    | false => simp [RepeatingGroup.makeRoom, hinsert]
    | true =>
      simp only [RepeatingGroup.makeRoom, hinsert, if_true]
      rfl
  | field name text => rfl
  | warn warning => rfl

/-- A step sets its flat fields. -/
theorem flatFields_perform (overwrite : Bool) (r : Rendering) (step : Step) :
    (r.perform overwrite step).report.flatFields = r.report.flatFields.insertAll step.fields := by
  cases step <;> rfl

/-- A step adds its warnings. -/
theorem warnings_perform (overwrite : Bool) (r : Rendering) (step : Step) :
    (r.perform overwrite step).report.warnings = r.report.warnings ++ step.warnings := by
  cases step with
  | cell sheet c datum => exact (List.append_nil _).symm
  | range target sheet range value => rfl
  | table group dialect items sheet row => rfl
  | field name text => exact (List.append_nil _).symm
  | warn warning => rfl

variable (overwrite : Bool) (r : Rendering) (steps : List Step)

/-- Steps are carried out one list after the other. -/
theorem performAll_append (more : List Step) :
    r.performAll overwrite (steps ++ more) = (r.performAll overwrite steps).performAll overwrite more :=
  List.foldl_append

/-- Steps change the workbook by their edits. -/
theorem workbook_performAll :
    (r.performAll overwrite steps).workbook = r.workbook.editAll (steps.flatMap (·.edits overwrite)) := by
  induction steps generalizing r with
  | nil => rfl
  | cons step rest ih =>
    change ((r.perform overwrite step).performAll overwrite rest).workbook = _
    rw [ih, workbook_perform, List.flatMap_cons, Workbook.editAll_append]

/-- Steps set their flat fields. -/
theorem flatFields_performAll :
    (r.performAll overwrite steps).report.flatFields =
      r.report.flatFields.insertAll (steps.flatMap Step.fields) := by
  induction steps generalizing r with
  | nil => rfl
  | cons step rest ih =>
    change ((r.perform overwrite step).performAll overwrite rest).report.flatFields = _
    rw [ih, flatFields_perform, List.flatMap_cons, TextMap.insertAll, TextMap.insertAll, TextMap.insertAll,
      List.foldl_append]

/-- Steps add their warnings. -/
theorem warnings_performAll :
    (r.performAll overwrite steps).report.warnings = r.report.warnings ++ steps.flatMap Step.warnings := by
  induction steps generalizing r with
  | nil => exact (List.append_nil _).symm
  | cons step rest ih =>
    change ((r.perform overwrite step).performAll overwrite rest).report.warnings = _
    rw [ih, warnings_perform, List.flatMap_cons, List.append_assoc]

end Rendering

namespace Workbook

variable {workbook : Workbook} {desc : Section} {data : Tree} {rendering : Rendering}

/-- Rendering succeeds exactly when the section's sheet is found, and then carries out the steps. -/
theorem render_eq_ok_iff :
    workbook.render desc data = .ok rendering ↔
      ∃ sheet, workbook.resolve desc.sheet = .ok sheet ∧
        rendering = Rendering.performAll desc.overwrite
          ⟨workbook, { id := desc.id, template := desc.template }⟩
          (Surroundings.steps ⟨workbook, sheet⟩ desc data) := by
  unfold render
  cases hresolve : workbook.resolve desc.sheet with
  | error fault =>
    constructor
    · intro h
      cases h
    · rintro ⟨_, h, -⟩
      cases h
  | ok sheet =>
    constructor
    · intro h
      cases h
      exact ⟨sheet, rfl, rfl⟩
    · rintro ⟨_, h, rfl⟩
      cases h
      rfl

/-- Rendering keeps the names of the sheets. -/
theorem names_of_render (h : workbook.render desc data = .ok rendering) :
    rendering.workbook.names = workbook.names := by
  obtain ⟨sheet, -, rfl⟩ := render_eq_ok_iff.mp h
  rw [Rendering.workbook_performAll, names_editAll]

end Workbook

end SheetFill
