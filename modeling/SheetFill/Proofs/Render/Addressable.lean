import SheetFill.Proofs.Fill.Words
import SheetFill.Proofs.Group.Words
import SheetFill.Proofs.Render.Addresses
import SheetFill.Proofs.Sheet.Addressable

/-!
# Rendering stays on the sheets

The steps of a section start from references that were read, and so lie on a sheet: a single cell, a range with its last
cell, the row where a table starts. Their values are nodes of the data. That is all that the loops of a fill and of a
table need to count exactly, and all that their writes need to go to places of a sheet. `Workbook.render?` renders with
these loops in words.

Main statement: rendering in words is rendering, and an addressable workbook stays addressable.
-/

namespace SheetFill

/-- A table writes to places of a sheet. -/
theorem RepeatingGroup.onSheet_of_mem_tableData {group : RepeatingGroup} {dialect : Dialect} {items : List Tree}
    {row : Nat} {e : Coordinate × Tree}
    (h : e ∈ group.tableData dialect row (items.take (group.roomFor row items.length))) :
    e.1.OnSheet := by
  obtain ⟨⟨item, r⟩, hitem, hdatum⟩ := List.mem_flatMap.mp h
  have hrow : e.1.row = r := group.row_of_mem_rowData dialect hdatum
  obtain ⟨_, -, hkey⟩ := ofKey_of_mem_rowData hdatum
  obtain ⟨hle, hlt, -⟩ := List.mem_zipIdx hitem
  rw [group.length_take_roomFor] at hlt
  refine ⟨?_, Column.le_of_ofKey hkey⟩
  rcases group.row_add_roomFor_le row items.length with hroom | hnone <;> omega

namespace Step

/-- The step lies on a sheet, and a value for a range has at most so many nodes. -/
def Fits (most : Nat) : Step → Prop
  | cell _ c _ => c.OnSheet
  | range _ _ target value => target.last.OnSheet ∧ value.size ≤ most
  | table _ _ _ _ row => row ≤ maxRow
  | field _ _ | warn _ => True

/-- A step that fits makes edits for places of sheets. -/
theorem Fits.onSheet_of_mem_edits {most : Nat} {step : Step} (hfits : step.Fits most) {overwrite : Bool}
    {e : Nat × Edit} (h : e ∈ step.edits overwrite) : e.2.OnSheet := by
  cases step with
  | cell sheet c datum =>
    obtain rfl := List.mem_singleton.mp h
    exact hfits
  | range target sheet range value =>
    obtain ⟨_, hmem, rfl⟩ := List.mem_map.mp h
    obtain ⟨⟨c, datum⟩, hassigned, rfl⟩ := List.mem_map.mp hmem
    exact CellRange.onSheet_of_mem hfits.1 (CellRange.mem_of_mem_assign hassigned)
  | table group dialect items sheet row =>
    obtain ⟨_, hmem, rfl⟩ := List.mem_map.mp h
    rcases List.mem_append.mp hmem with hroom | hwrite
    · split at hroom
      · obtain rfl := List.mem_singleton.mp hroom
        trivial
      · cases hroom
    · obtain ⟨⟨c, datum⟩, hdatum, rfl⟩ := List.mem_map.mp hwrite
      exact RepeatingGroup.onSheet_of_mem_tableData hdatum
  | field name text => cases h
  | warn warning => cases h

end Step

namespace Surroundings

variable {s : Surroundings} {step : Step} {most : Nat}

/-- A target that is placed lies on a sheet. -/
theorem fits_of_mem_placeSelection {target : String} {selection : Selection} (hsize : selection.tree.size ≤ most)
    (h : step ∈ s.placeSelection target selection) : step.Fits most := by
  unfold placeSelection at h
  split at h
  · cases h
  · split at h
    · next hplace =>
      obtain rfl := List.mem_singleton.mp h
      rcases place_eq_ok hplace with ⟨address, _, hparse, -, rfl⟩ | ⟨address, _, hparse, -, rfl⟩
      · exact ⟨RangeAddress.onSheet_of_parse hparse, hsize⟩
      · exact CellAddress.onSheet_of_parse hparse
    · obtain rfl := List.mem_singleton.mp h
      trivial

/-- The steps of a mapping fit. -/
theorem fits_of_mem_mappingSteps {dialect : Dialect} {data : Tree} {target path : String}
    (h : step ∈ s.mappingSteps dialect data target path) : step.Fits data.size := by
  unfold mappingSteps at h
  split at h
  · next hselection => exact fits_of_mem_placeSelection (Dialect.size_tree_evaluate hselection) h
  · obtain rfl := List.mem_singleton.mp h
    trivial

/-- The steps of a field fit. -/
theorem fits_of_mem_fieldSteps {dialect : Dialect} {base : Tree} (hbase : base.size ≤ most) {target path : String}
    (h : step ∈ s.fieldSteps dialect base target path) : step.Fits most := by
  unfold fieldSteps at h
  split at h
  · next hselection =>
    split at h
    · exact fits_of_mem_placeSelection (Nat.le_trans (Dialect.size_tree_evaluate hselection) hbase) h
    · obtain rfl := List.mem_singleton.mp h
      trivial
  · obtain rfl := List.mem_singleton.mp h
    trivial

/-- The base of a group has no more nodes than the data. -/
theorem size_of_base_eq_ok {dialect : Dialect} {data tree : Tree} {path : Option String}
    (h : base dialect data path = .ok tree) : tree.size ≤ data.size := by
  unfold base at h
  split at h
  · cases h
    exact Nat.le_refl _
  · split at h
    · next hselection =>
      cases h
      exact Dialect.size_tree_evaluate hselection
    · cases h

/-- The steps of a group fit. -/
theorem fits_of_mem_groupSteps {sectionDialect : Dialect} {data : Tree} {group : FieldGroup}
    (h : step ∈ s.groupSteps sectionDialect data group) : step.Fits data.size := by
  cases hrepeating : group.repeating with
  | none =>
    rw [groupSteps_of_repeating_eq_none hrepeating, plainGroupSteps] at h
    split at h
    · next hbase =>
      obtain ⟨e, -, hfield⟩ := List.mem_flatMap.mp h
      exact fits_of_mem_fieldSteps (size_of_base_eq_ok hbase) hfield
    · obtain rfl := List.mem_singleton.mp h
      trivial
  | some table =>
    cases hitems : group.items? sectionDialect data with
    | none =>
      obtain ⟨warning, hsteps⟩ := s.groupSteps_of_items?_eq_none hrepeating hitems
      rw [hsteps] at h
      obtain rfl := List.mem_singleton.mp h
      trivial
    | some items =>
      rw [groupSteps_of_items?_eq_some hrepeating hitems] at h
      cases htable : table.isTable with
      | false => obtain ⟨name, text, rfl⟩ | ⟨warning, rfl⟩ := field_or_warn_of_mem_repeatingSteps htable h <;> trivial
      | true =>
        cases hstart : table.start s.workbook s.defaultSheet with
        | error fault =>
          rw [repeatingSteps_of_start_eq_error htable hstart] at h
          obtain rfl := List.mem_singleton.mp h
          trivial
        | ok place =>
          rw [repeatingSteps_of_start_eq_ok htable hstart] at h
          obtain rfl := List.mem_singleton.mp h
          exact table.le_of_start_eq_ok hstart

/-- The steps of a section fit. -/
theorem fits_of_mem_steps {desc : Section} {data : Tree} (h : step ∈ s.steps desc data) : step.Fits data.size := by
  rcases List.mem_append.mp h with hmapping | hgroup
  · obtain ⟨e, -, hmem⟩ := List.mem_flatMap.mp hmapping
    exact fits_of_mem_mappingSteps hmem
  · obtain ⟨group, -, hmem⟩ := List.mem_flatMap.mp hgroup
    exact fits_of_mem_groupSteps hmem

end Surroundings

namespace Rendering

/-- Carries out one step, its loops in words. -/
def perform? (overwrite : Bool) (r : Rendering) : Step → Option Rendering
  | .range target sheet range value => do
    let (workbook, filled) ← r.workbook.fill? sheet overwrite range value
    some ((r.count workbook filled.tally).warnAll (truncatedWarnings target range filled.truncated))
  | .table group dialect items sheet row => do
    let outcome ← group.expandAt? dialect items sheet row r.workbook
    some ((r.count outcome.workbook outcome.tally).warnAll outcome.warnings)
  | .cell sheet c datum => some (r.perform overwrite (.cell sheet c datum))
  | .field name text => some (r.perform overwrite (.field name text))
  | .warn warning => some (r.perform overwrite (.warn warning))

/-- Carries out steps one after the other, their loops in words. -/
def performAll? (overwrite : Bool) (r : Rendering) (steps : List Step) : Option Rendering :=
  steps.foldlM (perform? overwrite) r

/-- In words a step that fits comes to the same rendering, if its data can be counted. -/
theorem perform?_eq {most : Nat} (hmost : most < 2 ^ 64) (overwrite : Bool) (r : Rendering) {step : Step}
    (hfits : step.Fits most) : r.perform? overwrite step = some (r.perform overwrite step) := by
  cases step with
  | range target sheet range value =>
    obtain ⟨hlast, hsize⟩ := hfits
    have hcount := value.dataCount_le_size
    rw [perform?, Workbook.fill?_eq_some r.workbook sheet overwrite hlast (by omega)]
    rfl
  | table group dialect items sheet row =>
    rw [perform?, group.expandAt?_eq dialect items sheet hfits]
    rfl
  | cell | field | warn => rfl

/-- In words steps that fit come to the same rendering, if their data can be counted. -/
theorem performAll?_eq {most : Nat} (hmost : most < 2 ^ 64) (overwrite : Bool) (r : Rendering) {steps : List Step}
    (hfits : ∀ step ∈ steps, step.Fits most) : r.performAll? overwrite steps = some (r.performAll overwrite steps) := by
  induction steps generalizing r with
  | nil => rfl
  | cons step rest ih =>
    obtain ⟨hstep, hrest⟩ := List.forall_mem_cons.mp hfits
    rw [performAll?, List.foldlM_cons, perform?_eq hmost overwrite r hstep]
    exact ih _ hrest

end Rendering

namespace Workbook

/-- Renders a section into a workbook, all loops in words. -/
def render? (workbook : Workbook) (desc : Section) (data : Tree) : Option (Except Fault Rendering) :=
  match workbook.resolve desc.sheet with
  | .error fault => some (.error fault)
  | .ok sheet =>
    (Rendering.performAll? desc.overwrite ⟨workbook, { id := desc.id, template := desc.template }⟩
      (Surroundings.steps ⟨workbook, sheet⟩ desc data)).map .ok

/-- An addressable workbook stays addressable, whatever is rendered into it. A tree that is held in memory has fewer
nodes than there are addresses of 64 bits, and from such a tree every loop computes its rows, columns, sizes and counts
exactly. -/
theorem render_addressable {workbook : Workbook} (hcells : workbook.Addressable) (desc : Section) (data : Tree) :
    (data.size < 2 ^ 64 → workbook.render? desc data = some (workbook.render desc data)) ∧
      ∀ rendering, workbook.render desc data = .ok rendering → rendering.workbook.Addressable := by
  constructor
  · intro hdata
    unfold render? render
    cases workbook.resolve desc.sheet with
    | error fault => rfl
    | ok sheet =>
      dsimp only
      rw [Rendering.performAll?_eq hdata desc.overwrite _ fun step => Surroundings.fits_of_mem_steps]
      rfl
  · intro rendering hrender
    obtain ⟨sheet, -, rfl⟩ := render_eq_ok_iff.mp hrender
    rw [Rendering.workbook_performAll]
    refine hcells.editAll fun e he => ?_
    obtain ⟨step, hstep, hedit⟩ := List.mem_flatMap.mp he
    exact (Surroundings.fits_of_mem_steps hstep).onSheet_of_mem_edits hedit

/-- A range and a table at the last rows and columns are given more data than they have room for, and the table pushes
the last rows of the sheet off it. -/
theorem render_addressable_last_cells :
    let table : RepeatingGroup :=
      { startCell := some "A1048575", insertRows := true
        fields := ⟨[("16384", "name"), ("A", "age")], by decide⟩ }
    let desc : Section :=
      { template := "t.xlsx"
        mappings := ⟨[("A1:B1", "people[*].name"), ("XFC1048575:XFD1048576", "grid")], by decide⟩
        groups := [{ basePath := some "people", repeating := some table }] }
    let data : Tree :=
      .record [("grid", .list [.list [.text "a", .text "b", .text "c"], .text "d", .list [.null, .null]]),
        ("people", .list [.record [("name", .text "Ann")], .record [("name", .text "Bob")],
          .record [("name", .text "Eve")]])]
    let workbook : Workbook := ⟨[(Sheet.new "S").set ⟨1048575, 0⟩ (.text "last")]⟩
    workbook.Addressable ∧ data.size < 2 ^ 64 ∧
      workbook.render? desc data = some (workbook.render desc data) ∧
      ∃ rendering, workbook.render desc data = .ok rendering ∧ rendering.workbook.Addressable ∧
        rendering.report.tally = ⟨9, 0⟩ ∧
        rendering.report.warnings.map (·.message) =
          ["1 value(s) did not fit in A1:B1", "3 value(s) did not fit in XFC1048575:XFD1048576",
            "1 item(s) past the last sheet row dropped"] ∧
        rendering.workbook.content 0 ⟨1048575, 16383⟩ = .text "Bob" := by
  intro table desc data workbook
  have hcells : workbook.Addressable := by decide
  have hdata : data.size < 2 ^ 64 := by decide
  obtain ⟨hwords, hbounds⟩ := render_addressable hcells desc data
  refine ⟨hcells, hdata, hwords hdata, _, rfl, hbounds _ rfl, ?_⟩
  decide +kernel

end Workbook

end SheetFill
