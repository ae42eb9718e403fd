import SheetFill.Proofs.Group.RowInsertion
import SheetFill.Render.Section

/-!
# Which steps a section has

The steps of a section depend on its entries, the data, and the names of the sheets, not on what the
sheets hold. A repeating group has one of three forms: a warning, the table of its items, or their
numbered fields. Tables come from nowhere else.
-/

namespace SheetFill

/-- The items that a group repeats, if its base path selects a list. -/
def FieldGroup.items? (group : FieldGroup) (sectionDialect : Dialect) (data : Tree) :
    Option (List Tree) := do
  let path ← group.basePath
  let selection ← ((group.dialect.getD sectionDialect).evaluate data path).toOption
  selection.items?

namespace Surroundings

variable {a b : Workbook} (h : a.names = b.names) (defaultSheet : Nat)

include h

/-- Which sheet a reference names depends on the names of the sheets alone. -/
theorem sheet_congr : sheet ⟨a, defaultSheet⟩ = sheet ⟨b, defaultSheet⟩ := by
  funext name
  cases name with
  | none => rfl
  | some name => exact Workbook.resolve_congr h (some name)

/-- The step of a value depends on the names of the sheets alone. -/
theorem placeSelection_congr : placeSelection ⟨a, defaultSheet⟩ = placeSelection ⟨b, defaultSheet⟩ := by
  funext target selection
  simp only [placeSelection, place, sheet_congr h defaultSheet]

/-- The steps of a group depend on the names of the sheets alone. -/
theorem groupSteps_congr : groupSteps ⟨a, defaultSheet⟩ = groupSteps ⟨b, defaultSheet⟩ := by
  funext dialect data group
  unfold groupSteps
  cases group.repeating with
  | none => simp only [plainGroupSteps, fieldSteps, placeSelection_congr h defaultSheet]
  | some table =>
    unfold repeatingGroupSteps repeatingSteps
    simp only [table.start_congr h defaultSheet]

/-- The steps of a section depend on the names of the sheets alone. -/
theorem steps_congr : steps ⟨a, defaultSheet⟩ = steps ⟨b, defaultSheet⟩ := by
  funext desc data
  simp only [steps, mappingSteps, placeSelection_congr h defaultSheet, groupSteps_congr h defaultSheet]

end Surroundings

namespace Surroundings

variable {s : Surroundings} {group : RepeatingGroup} {dialect : Dialect} {items : List Tree}
  {sheet row : Nat}

/-- A target that is placed becomes the range or the cell that it is read as. -/
theorem place_eq_ok {target : String} {value : Tree} {step : Step} (h : s.place target value = .ok step) :
    (∃ address i, RangeAddress.parse target = .ok address ∧ s.sheet address.sheet = .ok i ∧
        step = .range target i address.range value) ∨
      ∃ address i, CellAddress.parse target = .ok address ∧ s.sheet address.sheet = .ok i ∧
        step = .cell i address.cell value := by
  unfold place at h
  split at h
  · left
    cases hparse : RangeAddress.parse target with
    | error => simp [hparse, bind, Except.bind] at h
    | ok address =>
      cases hsheet : s.sheet address.sheet with
      | error => simp [hparse, hsheet, bind, Except.bind] at h
      | ok i =>
        simp only [hparse, hsheet, bind, Except.bind] at h
        exact ⟨address, i, rfl, hsheet, (Except.ok.inj h).symm⟩
  · right
    cases hparse : CellAddress.parse target with
    | error => simp [hparse, bind, Except.bind] at h
    | ok address =>
      cases hsheet : s.sheet address.sheet with
      | error => simp [hparse, hsheet, bind, Except.bind] at h
      | ok i =>
        simp only [hparse, hsheet, bind, Except.bind] at h
        exact ⟨address, i, rfl, hsheet, (Except.ok.inj h).symm⟩

/-- Placing a value makes no table. -/
theorem table_not_mem_placeSelection {target : String} {selection : Selection} :
    Step.table group dialect items sheet row ∉ s.placeSelection target selection := by
  intro h
  unfold placeSelection at h
  split at h
  · cases h
  · split at h
    · next step hplace =>
      obtain rfl := List.mem_singleton.mp h
      rcases place_eq_ok hplace with ⟨_, _, -, -, hstep⟩ | ⟨_, _, -, -, hstep⟩ <;> cases hstep
    · cases List.mem_singleton.mp h

/-- The mappings of a section make no table. -/
theorem table_not_mem_mappingSteps {d : Dialect} {data : Tree} {target path : String} :
    Step.table group dialect items sheet row ∉ s.mappingSteps d data target path := by
  unfold mappingSteps
  split
  · exact table_not_mem_placeSelection
  · simp

/-- A group without repetition makes no table. -/
theorem table_not_mem_plainGroupSteps {g : FieldGroup} {d : Dialect} {data : Tree} :
    Step.table group dialect items sheet row ∉ s.plainGroupSteps g d data := by
  intro h
  unfold plainGroupSteps at h
  split at h
  · obtain ⟨⟨target, path⟩, -, hfield⟩ := List.mem_flatMap.mp h
    dsimp only [fieldSteps] at hfield
    split at hfield
    · split at hfield
      · exact table_not_mem_placeSelection hfield
      · simp at hfield
    · simp at hfield
  · simp at h

/-- A group without repetition has the steps of its fields. -/
theorem groupSteps_of_repeating_eq_none {g : FieldGroup} {d : Dialect} {data : Tree}
    (h : g.repeating = none) :
    s.groupSteps d data g = s.plainGroupSteps g (g.dialect.getD d) data := by
  rw [groupSteps, h]

/-- A repeating group whose base path selects no list gives a warning and nothing else. -/
theorem groupSteps_of_items?_eq_none (s : Surroundings) {g : FieldGroup} {d : Dialect} {data : Tree}
    (hgroup : g.repeating = some group) (h : g.items? d data = none) :
    ∃ warning, s.groupSteps d data g = [.warn warning] := by
  unfold FieldGroup.items? at h
  rw [groupSteps, hgroup]
  cases hpath : g.basePath with
  | none => exact ⟨_, rfl⟩
  | some path =>
    simp only [hpath, Option.bind_eq_bind, Option.bind_some] at h
    cases hselection : (g.dialect.getD d).evaluate data path with
    | error fault => exact ⟨fault.warning path, by simp only [repeatingGroupSteps, hselection]⟩
    | ok selection =>
      simp only [hselection, Except.toOption, Option.bind_some] at h
      refine ⟨⟨.basePathNotSequence, path, "basePath does not resolve to a sequence; group skipped"⟩, ?_⟩
      simp only [repeatingGroupSteps, hselection, h]

/-- A repeating group whose base path selects a list repeats its items. -/
theorem groupSteps_of_items?_eq_some {g : FieldGroup} {d : Dialect} {data : Tree}
    (hgroup : g.repeating = some group) (h : g.items? d data = some items) :
    s.groupSteps d data g = s.repeatingSteps group (g.dialect.getD d) items := by
  unfold FieldGroup.items? at h
  rw [groupSteps, hgroup]
  cases hpath : g.basePath with
  | none => simp [hpath] at h
  | some path =>
    simp only [hpath, Option.bind_eq_bind, Option.bind_some] at h
    cases hselection : (g.dialect.getD d).evaluate data path with
    | error fault => simp [hselection, Except.toOption] at h
    | ok selection =>
      simp only [hselection, Except.toOption, Option.bind_some] at h
      simp only [repeatingGroupSteps, hselection, h]

/-- A table whose start cell is found is one step. -/
theorem repeatingSteps_of_start_eq_ok (htable : group.isTable = true)
    (hstart : group.start s.workbook s.defaultSheet = .ok (sheet, row)) :
    s.repeatingSteps group dialect items = [.table group dialect items sheet row] := by
  rw [repeatingSteps, if_pos htable, hstart]

/-- A table whose start cell is not found gives a warning and nothing else. -/
theorem repeatingSteps_of_start_eq_error {fault : Fault} (htable : group.isTable = true)
    (hstart : group.start s.workbook s.defaultSheet = .error fault) :
    s.repeatingSteps group dialect items = [.warn (fault.warning group.startText)] := by
  rw [repeatingSteps, if_pos htable, hstart]

/-- A repeating group without a start cell makes flat fields and warnings. -/
theorem repeatingSteps_of_not_isTable (htable : group.isTable = false) :
    s.repeatingSteps group dialect items =
      (group.expandFlat dialect items).entries.map (fun (name, text) => .field name text) ++
        (group.flatWarnings dialect items).map .warn := by
  rw [repeatingSteps, if_neg (by simp [htable])]

/-- A table among the steps of a section is the table of one of its groups. -/
theorem exists_group_of_table_mem_steps {desc : Section} {data : Tree}
    (h : Step.table group dialect items sheet row ∈ s.steps desc data) :
    ∃ g ∈ desc.groups, g.repeating = some group ∧ group.isTable = true := by
  rcases List.mem_append.mp h with hmapping | hgroup
  · obtain ⟨⟨target, path⟩, -, hmem⟩ := List.mem_flatMap.mp hmapping
    exact absurd hmem table_not_mem_mappingSteps
  · obtain ⟨g, hg, hmem⟩ := List.mem_flatMap.mp hgroup
    refine ⟨g, hg, ?_⟩
    cases hrepeating : g.repeating with
    | none =>
      rw [groupSteps_of_repeating_eq_none hrepeating] at hmem
      exact absurd hmem table_not_mem_plainGroupSteps
    | some table =>
      cases hitems : g.items? desc.dialect data with
      | none =>
        obtain ⟨warning, hsteps⟩ := s.groupSteps_of_items?_eq_none hrepeating hitems
        simp [hsteps] at hmem
      | some found =>
        rw [groupSteps_of_items?_eq_some hrepeating hitems] at hmem
        cases htable : table.isTable with
        | false => simp [repeatingSteps_of_not_isTable htable] at hmem
        | true =>
          cases hstart : table.start s.workbook s.defaultSheet with
          | error fault => simp [repeatingSteps_of_start_eq_error htable hstart] at hmem
          | ok place =>
            obtain ⟨i, start⟩ := place
            rw [repeatingSteps_of_start_eq_ok htable hstart] at hmem
            obtain ⟨rfl, -⟩ := Step.table.inj (List.mem_singleton.mp hmem)
            exact ⟨rfl, htable⟩

end Surroundings

end SheetFill
