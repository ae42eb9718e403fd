import SheetFill.Proofs.Fill.Range
import SheetFill.Proofs.Render.Edits

/-!
# Which cells a section addresses

A section addresses the cells and ranges of its targets and, for each table, the rows of its items
in the columns of its keys. Whatever the data look like, a step writes to the cells that it covers
alone, and every cell that a step of the section covers is addressed.
-/

namespace SheetFill

/-- A row of a table, in a column of one of its keys. -/
def RepeatingGroup.CoversFrom (table : RepeatingGroup) (row available : Nat) (c : Coordinate) : Prop :=
  row ≤ c.row ∧ c.row < row + table.itemCount available ∧
    ∃ e ∈ table.fields.entries, Column.ofKey e.1 = .ok c.col

namespace Surroundings

variable (s : Surroundings)

/-- The target can be read, and it is the cell, or a range with the cell. -/
def Covers (target : String) (i : Nat) (c : Coordinate) : Prop :=
  (∃ address, RangeAddress.parse target = .ok address ∧ s.sheet address.sheet = .ok i ∧
      c ∈ address.range) ∨
    ∃ address, CellAddress.parse target = .ok address ∧ s.sheet address.sheet = .ok i ∧ c = address.cell

/-- A target of the group covers the cell, or it lies in the table of the group. -/
def GroupAddresses (sectionDialect : Dialect) (data : Tree) (group : FieldGroup) (i : Nat)
    (c : Coordinate) : Prop :=
  match group.repeating with
  | none => ∃ e ∈ group.fields.entries, s.Covers e.1 i c
  | some table => table.isTable = true ∧ ∃ items row, group.items? sectionDialect data = some items ∧
      table.start s.workbook s.defaultSheet = .ok (i, row) ∧ table.CoversFrom row items.length c

/-- A mapping of the section covers the cell, or a group addresses it. -/
def Addresses (desc : Section) (data : Tree) (i : Nat) (c : Coordinate) : Prop :=
  (∃ e ∈ desc.mappings.entries, s.Covers e.1 i c) ∨
    ∃ group ∈ desc.groups, s.GroupAddresses desc.dialect data group i c

end Surroundings

/-- A section addresses a cell of a sheet of the workbook that it is rendered into. -/
def Workbook.Addresses (workbook : Workbook) (desc : Section) (data : Tree) (i : Nat) (c : Coordinate) :
    Prop :=
  ∃ defaultSheet, workbook.resolve desc.sheet = .ok defaultSheet ∧
    Surroundings.Addresses ⟨workbook, defaultSheet⟩ desc data i c

namespace RepeatingGroup

variable {table : RepeatingGroup} {dialect : Dialect} {c : Coordinate} {datum : Tree}

/-- A row has data for the columns of keys. -/
theorem ofKey_of_mem_rowData {item : Tree} {row : Nat} (h : (c, datum) ∈ table.rowData dialect item row) :
    ∃ e ∈ table.fields.entries, Column.ofKey e.1 = .ok c.col := by
  obtain ⟨⟨col, path⟩, hcolumn, hdatum⟩ := List.mem_filterMap.mp h
  obtain ⟨e, hmem, hkey⟩ := List.mem_filterMap.mp hcolumn
  dsimp only at hkey hdatum
  refine ⟨e, hmem, ?_⟩
  cases hcol : Column.ofKey e.1 with
  | error fault => simp [hcol] at hkey
  | ok found =>
    simp only [hcol, Option.some.injEq, Prod.mk.injEq] at hkey
    obtain ⟨rfl, -⟩ := hkey
    split at hdatum
    · cases hdatum
      rfl
    · cases hdatum

/-- A table has data for the rows of the items that it takes, in the columns of its keys. -/
theorem coversFrom_of_mem_tableData {items : List Tree} {row : Nat}
    (h : (c, datum) ∈ table.tableData dialect row (items.take (table.roomFor row items.length))) :
    table.CoversFrom row items.length c := by
  obtain ⟨⟨item, r⟩, hitem, hdatum⟩ := List.mem_flatMap.mp h
  have hrow : c.row = r := table.row_of_mem_rowData dialect hdatum
  obtain ⟨hle, hlt, -⟩ := List.mem_zipIdx hitem
  have hroom : table.roomFor row items.length ≤ table.itemCount items.length := Nat.min_le_left _ _
  have htaken := List.length_take_le (table.roomFor row items.length) items
  exact ⟨by omega, by omega, ofKey_of_mem_rowData hdatum⟩

end RepeatingGroup

namespace Step

/-- The cells that a step may change. -/
def Covers (i : Nat) (c : Coordinate) : Step → Prop
  | cell sheet k _ => i = sheet ∧ c = k
  | range _ sheet target _ => i = sheet ∧ c ∈ target
  | table group _ items sheet row => i = sheet ∧ group.CoversFrom row items.length c
  | field _ _ | warn _ => False

/-- The writes of a step go to the cells that it covers. -/
theorem covers_of_mem_edits {step : Step} {overwrite own : Bool} {i : Nat} {c : Coordinate}
    {datum : Tree} (h : (i, Edit.write own c datum) ∈ step.edits overwrite) : step.Covers i c := by
  cases step with
  | cell sheet k value =>
    cases List.mem_singleton.mp h
    exact ⟨rfl, rfl⟩
  | range target sheet range value =>
    obtain ⟨edit, hmem, hedit⟩ := List.mem_map.mp h
    obtain ⟨⟨k, value⟩, hassigned, rfl⟩ := List.mem_map.mp hmem
    cases hedit
    exact ⟨rfl, CellRange.mem_of_mem_assign hassigned⟩
  | table group dialect items sheet row =>
    obtain ⟨edit, hmem, hedit⟩ := List.mem_map.mp h
    rcases List.mem_append.mp hmem with hroom | hwrite
    · split at hroom
      · cases List.mem_singleton.mp hroom
        cases hedit
      · cases hroom
    · obtain ⟨⟨k, value⟩, hdatum, rfl⟩ := List.mem_map.mp hwrite
      cases hedit
      exact ⟨rfl, RepeatingGroup.coversFrom_of_mem_tableData hdatum⟩
  | field name text => cases h
  | warn warning => cases h

end Step

namespace Surroundings

variable {s : Surroundings} {step : Step} {i : Nat} {c : Coordinate}

/-- A target that is placed covers the cells of its step. -/
theorem covers_of_place {target : String} {value : Tree} (h : s.place target value = .ok step)
    (hcovers : step.Covers i c) : s.Covers target i c := by
  rcases place_eq_ok h with ⟨address, j, hparse, hsheet, rfl⟩ | ⟨address, j, hparse, hsheet, rfl⟩
  · obtain ⟨rfl, hmem⟩ := hcovers
    exact .inl ⟨address, hparse, hsheet, hmem⟩
  · obtain ⟨rfl, rfl⟩ := hcovers
    exact .inr ⟨address, hparse, hsheet, rfl⟩

/-- A target covers the cells of the steps of its value. -/
theorem covers_of_mem_placeSelection {target : String} {selection : Selection}
    (h : step ∈ s.placeSelection target selection) (hcovers : step.Covers i c) : s.Covers target i c := by
  unfold placeSelection at h
  split at h
  · cases h
  · split at h
    · next hplace =>
      cases List.mem_singleton.mp h
      exact covers_of_place hplace hcovers
    · cases List.mem_singleton.mp h
      cases hcovers

/-- The target of a mapping covers the cells of its steps. -/
theorem covers_of_mem_mappingSteps {dialect : Dialect} {data : Tree} {target path : String}
    (h : step ∈ s.mappingSteps dialect data target path) (hcovers : step.Covers i c) :
    s.Covers target i c := by
  unfold mappingSteps at h
  split at h
  · exact covers_of_mem_placeSelection h hcovers
  · cases List.mem_singleton.mp h
    cases hcovers

/-- The key of a field covers the cells of its steps. -/
theorem covers_of_mem_fieldSteps {dialect : Dialect} {base : Tree} {target path : String}
    (h : step ∈ s.fieldSteps dialect base target path) (hcovers : step.Covers i c) :
    s.Covers target i c := by
  unfold fieldSteps at h
  split at h
  · split at h
    · exact covers_of_mem_placeSelection h hcovers
    · cases List.mem_singleton.mp h
      cases hcovers
  · cases List.mem_singleton.mp h
    cases hcovers

/-- Numbered fields come as flat fields and warnings. -/
theorem field_or_warn_of_mem_repeatingSteps {group : RepeatingGroup} {dialect : Dialect} {items : List Tree}
    (hflat : group.isTable = false) (h : step ∈ s.repeatingSteps group dialect items) :
    (∃ name text, step = .field name text) ∨ ∃ warning, step = .warn warning := by
  rw [repeatingSteps_of_not_isTable hflat] at h
  rcases List.mem_append.mp h with hfield | hwarning
  · obtain ⟨⟨name, text⟩, -, rfl⟩ := List.mem_map.mp hfield
    exact .inl ⟨name, text, rfl⟩
  · obtain ⟨warning, -, rfl⟩ := List.mem_map.mp hwarning
    exact .inr ⟨warning, rfl⟩

/-- A group addresses the cells that its steps cover. -/
theorem groupAddresses_of_mem_groupSteps {sectionDialect : Dialect} {data : Tree} {group : FieldGroup}
    (h : step ∈ s.groupSteps sectionDialect data group) (hcovers : step.Covers i c) :
    s.GroupAddresses sectionDialect data group i c := by
  unfold GroupAddresses
  cases hrepeating : group.repeating with
  | none =>
    rw [groupSteps_of_repeating_eq_none hrepeating, plainGroupSteps] at h
    split at h
    · obtain ⟨e, hentry, hfield⟩ := List.mem_flatMap.mp h
      exact ⟨e, hentry, covers_of_mem_fieldSteps hfield hcovers⟩
    · cases List.mem_singleton.mp h
      cases hcovers
  | some table =>
    cases hitems : group.items? sectionDialect data with
    | none =>
      obtain ⟨warning, hsteps⟩ := s.groupSteps_of_items?_eq_none hrepeating hitems
      rw [hsteps] at h
      cases List.mem_singleton.mp h
      cases hcovers
    | some items =>
      rw [groupSteps_of_items?_eq_some hrepeating hitems] at h
      cases htable : table.isTable with
      | false =>
        obtain ⟨name, text, rfl⟩ | ⟨warning, rfl⟩ := field_or_warn_of_mem_repeatingSteps htable h <;>
          cases hcovers
      | true =>
        cases hstart : table.start s.workbook s.defaultSheet with
        | error fault =>
          rw [repeatingSteps_of_start_eq_error htable hstart] at h
          cases List.mem_singleton.mp h
          cases hcovers
        | ok place =>
          obtain ⟨sheet, row⟩ := place
          rw [repeatingSteps_of_start_eq_ok htable hstart] at h
          cases List.mem_singleton.mp h
          obtain ⟨rfl, hfrom⟩ := hcovers
          exact ⟨htable, items, row, rfl, hstart, hfrom⟩

/-- A section addresses the cells that its steps cover. -/
theorem addresses_of_mem_steps {desc : Section} {data : Tree} (h : step ∈ s.steps desc data)
    (hcovers : step.Covers i c) : s.Addresses desc data i c := by
  rcases List.mem_append.mp h with hmapping | hgroup
  · obtain ⟨e, hentry, hmem⟩ := List.mem_flatMap.mp hmapping
    exact .inl ⟨e, hentry, covers_of_mem_mappingSteps hmem hcovers⟩
  · obtain ⟨group, hgroup, hmem⟩ := List.mem_flatMap.mp hgroup
    exact .inr ⟨group, hgroup, groupAddresses_of_mem_groupSteps hmem hcovers⟩

end Surroundings

end SheetFill
