import Mathlib.Data.List.Basic
import SheetFill.Proofs.Group.FaultyFields
import SheetFill.Proofs.Render.Steps

/-!
# Sections without faulty entries

An entry of a section is faulty if it can only give a warning: a path that cannot be read, a target
that is no cell of a known sheet, a column key that names no column, a repeating group whose base
path selects no list, or a table without a start cell on a known sheet. `Surroundings.withoutFaults`
takes them out.

Main statement: the steps of what is left are the steps of the whole section, less the warnings.
-/

namespace SheetFill

/-- What is left of a step without faulty entries. -/
def Step.withoutFaults : Step → List Step
  | table group dialect items sheet row =>
    [table (group.withoutFaultyColumns dialect) dialect items sheet row]
  | warn _ => []
  | step => [step]

/-- Going through the entries that fulfil a condition is passing over the others. -/
theorem flatMap_filter {α β : Type} (p : α → Bool) (f : α → List β) (l : List α) :
    (l.filter p).flatMap f = l.flatMap fun x => if p x then f x else [] := by
  induction l with
  | nil => rfl
  | cons x rest ih =>
    rw [List.filter_cons, List.flatMap_cons, ← ih]
    split <;> rfl

/-- If each entry of a map keeps its steps or leaves only warnings, so do all of them. -/
theorem TextMap.flatMap_filter_entries (m : TextMap) {p : String → String → Bool}
    {f : String → String → List Step}
    (h : ∀ target path,
      (f target path).flatMap Step.withoutFaults = if p target path then f target path else []) :
    ((m.filter p).entries.flatMap fun (target, path) => f target path) =
      (m.entries.flatMap fun (target, path) => f target path).flatMap Step.withoutFaults := by
  rw [TextMap.filter, flatMap_filter, List.flatMap_assoc]
  congr 1
  funext e
  exact (h e.1 e.2).symm

namespace Surroundings

variable (s : Surroundings)

/-- The target is a cell or a range of a sheet that is there. -/
def reaches (target : String) : Bool :=
  if isRangeReference target then
    match RangeAddress.parse target with
    | .ok address => (s.sheet address.sheet).isOk
    | .error _ => false
  else
    match CellAddress.parse target with
    | .ok address => (s.sheet address.sheet).isOk
    | .error _ => false

/-- The group without its faulty entries; nothing is left if the group itself is faulty. -/
def groupWithoutFaults? (sectionDialect : Dialect) (data : Tree) (group : FieldGroup) :
    Option FieldGroup :=
  let dialect := group.dialect.getD sectionDialect
  match group.repeating with
  | some table =>
    if (group.items? sectionDialect data).isNone then none
    else if table.isTable then
      if (table.start s.workbook s.defaultSheet).isOk then
        some { group with repeating := some (table.withoutFaultyColumns dialect) }
      else none
    else some { group with repeating := some (table.withoutFaultyFields dialect) }
  | none =>
    if group.basePath.all dialect.reads then
      some { group with
        fields := group.fields.filter fun target path =>
          dialect.reads path && (!isCellTarget target || s.reaches target) }
    else none

/-- The section without its faulty entries. -/
def withoutFaults (desc : Section) (data : Tree) : Section :=
  { desc with
    mappings := desc.mappings.filter fun target path => desc.dialect.reads path && s.reaches target
    groups := desc.groups.filterMap (s.groupWithoutFaults? desc.dialect data) }

/-- Exactly the targets that are reached are placed. -/
theorem isOk_place (target : String) (value : Tree) : (s.place target value).isOk = s.reaches target := by
  unfold place reaches
  split
  · cases RangeAddress.parse target with
    | error fault => rfl
    | ok address =>
      cases h : s.sheet address.sheet <;> simp [h, bind, Except.bind, Except.isOk, Except.toBool]
  · cases CellAddress.parse target with
    | error fault => rfl
    | ok address =>
      cases h : s.sheet address.sheet <;> simp [h, bind, Except.bind, Except.isOk, Except.toBool]

/-- Placing a value at a target that is not reached leaves only warnings. -/
theorem placeSelection_withoutFaults (target : String) (selection : Selection) :
    (s.placeSelection target selection).flatMap Step.withoutFaults =
      if s.reaches target then s.placeSelection target selection else [] := by
  unfold placeSelection
  rw [← s.isOk_place target selection.tree]
  split
  · split <;> rfl
  · cases hplace : s.place target selection.tree with
    | error fault => rfl
    | ok step => rcases place_eq_ok hplace with ⟨_, _, -, -, rfl⟩ | ⟨_, _, -, -, rfl⟩ <;> rfl

/-- A faulty mapping leaves only warnings. -/
theorem mappingSteps_withoutFaults (dialect : Dialect) (data : Tree) (target path : String) :
    (s.mappingSteps dialect data target path).flatMap Step.withoutFaults =
      if dialect.reads path && s.reaches target then s.mappingSteps dialect data target path else [] := by
  unfold mappingSteps
  rw [← dialect.isOk_evaluate data]
  cases dialect.evaluate data path with
  | error fault => rfl
  | ok selection => exact s.placeSelection_withoutFaults target selection

/-- A faulty field of a group leaves only warnings. -/
theorem fieldSteps_withoutFaults (dialect : Dialect) (base : Tree) (target path : String) :
    (s.fieldSteps dialect base target path).flatMap Step.withoutFaults =
      if dialect.reads path && (!isCellTarget target || s.reaches target) then
        s.fieldSteps dialect base target path
      else [] := by
  unfold fieldSteps
  rw [← dialect.isOk_evaluate base]
  cases dialect.evaluate base path with
  | error fault => rfl
  | ok selection =>
    cases isCellTarget target with
    | false => rfl
    | true => exact s.placeSelection_withoutFaults target selection

/-- A group has a base exactly if its base path can be read. -/
theorem isOk_base (dialect : Dialect) (data : Tree) (basePath : Option String) :
    (base dialect data basePath).isOk = basePath.all dialect.reads := by
  cases basePath with
  | none => rfl
  | some path =>
    rw [base, Option.all_some, ← dialect.isOk_evaluate data]
    cases dialect.evaluate data path <;> rfl

/-- A group without repetition whose base path can be read keeps the steps of its fields that are
not faulty. -/
theorem plainGroupSteps_withoutFaults (group : FieldGroup) (dialect : Dialect) (data : Tree) :
    (s.plainGroupSteps group dialect data).flatMap Step.withoutFaults =
      if group.basePath.all dialect.reads then
        s.plainGroupSteps { group with
          fields := group.fields.filter fun target path =>
            dialect.reads path && (!isCellTarget target || s.reaches target) } dialect data
      else [] := by
  unfold plainGroupSteps
  rw [← isOk_base dialect data]
  cases base dialect data group.basePath with
  | error warning => rfl
  | ok tree => exact (TextMap.flatMap_filter_entries _ (s.fieldSteps_withoutFaults dialect tree)).symm

/-- The items of a table keep its steps without the faulty columns. -/
theorem repeatingSteps_withoutFaults_of_isTable {table : RepeatingGroup} (htable : table.isTable = true)
    (dialect : Dialect) (items : List Tree) :
    (s.repeatingSteps table dialect items).flatMap Step.withoutFaults =
      if (table.start s.workbook s.defaultSheet).isOk then
        s.repeatingSteps (table.withoutFaultyColumns dialect) dialect items
      else [] := by
  cases hstart : table.start s.workbook s.defaultSheet with
  | error fault =>
    rw [repeatingSteps_of_start_eq_error htable hstart]
    rfl
  | ok place =>
    obtain ⟨sheet, row⟩ := place
    have hclean : (table.withoutFaultyColumns dialect).isTable = true := htable
    rw [repeatingSteps_of_start_eq_ok htable hstart, repeatingSteps_of_start_eq_ok hclean hstart]
    rfl

/-- Numbered fields keep their steps, and the warnings about faulty ones are left out. -/
theorem repeatingSteps_withoutFaults_of_not_isTable {group : RepeatingGroup} (htable : group.isTable = false)
    (dialect : Dialect) (items : List Tree) :
    (s.repeatingSteps group dialect items).flatMap Step.withoutFaults =
      s.repeatingSteps (group.withoutFaultyFields dialect) dialect items := by
  have hclean : (group.withoutFaultyFields dialect).isTable = false := htable
  rw [repeatingSteps_of_not_isTable htable, repeatingSteps_of_not_isTable hclean,
    group.expandFlat_withoutFaultyFields dialect, group.flatWarnings_withoutFaultyFields dialect,
    List.flatMap_append, List.flatMap_map, List.flatMap_map]
  have hwarnings : (group.flatWarnings dialect items).flatMap (fun w => (Step.warn w).withoutFaults) = [] :=
    List.flatMap_eq_nil_iff.mpr fun _ _ => rfl
  rw [hwarnings]
  exact congrArg (· ++ []) List.map_eq_flatMap.symm

/-- A group leaves the steps of what it is without its faulty entries. -/
theorem groupSteps_withoutFaults (sectionDialect : Dialect) (data : Tree) (group : FieldGroup) :
    (s.groupSteps sectionDialect data group).flatMap Step.withoutFaults =
      (s.groupWithoutFaults? sectionDialect data group).toList.flatMap
        (s.groupSteps sectionDialect data) := by
  unfold groupWithoutFaults?
  cases hrepeating : group.repeating with
  | none =>
    rw [groupSteps_of_repeating_eq_none hrepeating, plainGroupSteps_withoutFaults]
    dsimp only
    split
    · simp [groupSteps_of_repeating_eq_none, hrepeating]
    · rfl
  | some table =>
    cases hitems : group.items? sectionDialect data with
    | none =>
      obtain ⟨warning, hwarning⟩ := s.groupSteps_of_items?_eq_none hrepeating hitems
      rw [hwarning]
      rfl
    | some items =>
      -- What is repeated is the same with or without the faulty entries.
      have hclean : ∀ clean : RepeatingGroup,
          s.groupSteps sectionDialect data { group with repeating := some clean } =
            s.repeatingSteps clean (group.dialect.getD sectionDialect) items := by
        intro clean
        have hsame : FieldGroup.items? { group with repeating := some clean } sectionDialect data =
            some items := hitems
        exact groupSteps_of_items?_eq_some rfl hsame
      rw [groupSteps_of_items?_eq_some hrepeating hitems]
      cases htable : table.isTable with
      | true =>
        rw [s.repeatingSteps_withoutFaults_of_isTable htable]
        simp only [htable, Option.isNone_some, Bool.false_eq_true, if_false, if_true]
        split
        · simp [hclean]
        · rfl
      | false =>
        rw [s.repeatingSteps_withoutFaults_of_not_isTable htable]
        simp [htable, hclean]

/-- A section leaves the steps of what it is without its faulty entries. -/
theorem steps_withoutFaults (desc : Section) (data : Tree) :
    s.steps (s.withoutFaults desc data) data = (s.steps desc data).flatMap Step.withoutFaults := by
  have hmappings := desc.mappings.flatMap_filter_entries (s.mappingSteps_withoutFaults desc.dialect data)
  have hgroups : (desc.groups.filterMap (s.groupWithoutFaults? desc.dialect data)).flatMap
      (s.groupSteps desc.dialect data) =
        (desc.groups.flatMap (s.groupSteps desc.dialect data)).flatMap Step.withoutFaults := by
    rw [List.filterMap_eq_flatMap_toList, List.flatMap_assoc, List.flatMap_assoc]
    simp only [groupSteps_withoutFaults]
  rw [steps, steps, List.flatMap_append, ← hgroups, ← hmappings]
  rfl

end Surroundings

/-- The section without its faulty entries, rendered into a workbook. -/
def Workbook.withoutFaults (workbook : Workbook) (desc : Section) (data : Tree) : Section :=
  match workbook.resolve desc.sheet with
  | .ok sheet => Surroundings.withoutFaults ⟨workbook, sheet⟩ desc data
  | .error _ => desc

end SheetFill
