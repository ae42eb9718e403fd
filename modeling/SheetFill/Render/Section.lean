import SheetFill.Fill.Range
import SheetFill.Group.Table
import SheetFill.Render.Report

/-!
# Rendering a section

The mappings of a section are first turned into a list of steps: a cell or a range to fill, a table to write, a flat field
to set, or a warning. Which steps there are depends on the section, the data and the names of the sheets only, so that a
faulty mapping becomes a warning and touches nothing else. The steps are then carried out in order.

Only an unknown sheet of the section itself fails.
-/

namespace SheetFill

/-- One step of rendering. -/
inductive Step where
  | cell (sheet : Nat) (c : Coordinate) (datum : Tree)
  /-- A range to fill; the target is its text in the mapping. -/
  | range (target : String) (sheet : Nat) (range : CellRange) (value : Tree)
  /-- A table to write from a row on. -/
  | table (group : RepeatingGroup) (dialect : Dialect) (items : List Tree) (sheet row : Nat)
  | field (name text : String)
  | warn (warning : Warning)

/-- Where a section is rendered to. -/
structure Surroundings where
  /-- The workbook, of which only the names of the sheets count. -/
  workbook : Workbook
  /-- The sheet of references that name none. -/
  defaultSheet : Nat

namespace Surroundings

/-- The sheet that a reference names. -/
def sheet (s : Surroundings) : Option String → Except Fault Nat
  | none => .ok s.defaultSheet
  | some name => s.workbook.resolve (some name)

/-- The step that gives a target a value. -/
def place (s : Surroundings) (target : String) (value : Tree) : Except Fault Step :=
  if isRangeReference target then do
    let address ← RangeAddress.parse target
    let sheet ← s.sheet address.sheet
    .ok (.range target sheet address.range value)
  else do
    let address ← CellAddress.parse target
    let sheet ← s.sheet address.sheet
    .ok (.cell sheet address.cell value)

/-- The steps of a selected value; a missing one leaves a range as it is. -/
def placeSelection (s : Surroundings) (target : String) (selection : Selection) : List Step :=
  if selection.isMissing && isRangeReference target then []
  else
    match s.place target selection.tree with
    | .ok step => [step]
    | .error fault => [.warn (fault.warning target)]

/-- The steps of one mapping. -/
def mappingSteps (s : Surroundings) (dialect : Dialect) (data : Tree) (target path : String) :
    List Step :=
  match dialect.evaluate data path with
  | .ok selection => s.placeSelection target selection
  | .error fault => [.warn (fault.warning path)]

end Surroundings

/-- Whether the key of a group means a cell or a range, and not a flat field. -/
def isCellTarget (target : String) : Bool :=
  isRangeReference target || '!' ∈ target.toList || (Coordinate.parse target).isOk

namespace Surroundings

/-- The steps of one field of a group. -/
def fieldSteps (s : Surroundings) (dialect : Dialect) (base : Tree) (target path : String) :
    List Step :=
  match dialect.evaluate base path with
  | .ok selection =>
    if isCellTarget target then s.placeSelection target selection
    else [.field target selection.text]
  | .error fault => [.warn (fault.warning path)]

/-- The steps of the items of a repeating group. -/
def repeatingSteps (s : Surroundings) (group : RepeatingGroup) (dialect : Dialect)
    (items : List Tree) : List Step :=
  if group.isTable then
    match group.start s.workbook s.defaultSheet with
    | .ok (sheet, row) => [.table group dialect items sheet row]
    | .error fault => [.warn (fault.warning group.startText)]
  else
    (group.expandFlat dialect items).entries.map (fun (name, text) => .field name text) ++
      (group.flatWarnings dialect items).map .warn

/-- The steps of a repeating group with a base path. -/
def repeatingGroupSteps (s : Surroundings) (group : RepeatingGroup) (dialect : Dialect)
    (data : Tree) : Option String → List Step
  | none =>
    [.warn ⟨.missingBasePath, "fieldMappingGroups", "repeating group has no basePath"⟩]
  | some path =>
    match dialect.evaluate data path with
    | .error fault => [.warn (fault.warning path)]
    | .ok selection =>
      match selection.items? with
      | some items => s.repeatingSteps group dialect items
      | none =>
        [.warn ⟨.basePathNotSequence, path,
          "basePath does not resolve to a sequence; group skipped"⟩]

/-- The tree to which the paths of a group without repetition are relative; a missing one is null. -/
def base (dialect : Dialect) (data : Tree) : Option String → Except Warning Tree
  | none => .ok data
  | some path =>
    match dialect.evaluate data path with
    | .ok selection => .ok selection.tree
    | .error fault => .error (fault.warning path)

/-- The steps of a group without repetition. -/
def plainGroupSteps (s : Surroundings) (group : FieldGroup) (dialect : Dialect) (data : Tree) :
    List Step :=
  match base dialect data group.basePath with
  | .ok base =>
    group.fields.entries.flatMap fun (target, path) => s.fieldSteps dialect base target path
  | .error warning => [.warn warning]

/-- The steps of a group. -/
def groupSteps (s : Surroundings) (sectionDialect : Dialect) (data : Tree) (group : FieldGroup) :
    List Step :=
  let dialect := group.dialect.getD sectionDialect
  match group.repeating with
  | some repeating => s.repeatingGroupSteps repeating dialect data group.basePath
  | none => s.plainGroupSteps group dialect data

/-- The steps of a section: its mappings, then its groups. -/
def steps (s : Surroundings) (desc : Section) (data : Tree) : List Step :=
  (desc.mappings.entries.flatMap fun (target, path) =>
    s.mappingSteps desc.dialect data target path) ++
    desc.groups.flatMap (s.groupSteps desc.dialect data)

end Surroundings

/-- The workbook and the report so far. -/
structure Rendering where
  workbook : Workbook
  report : Report

namespace Rendering

/-- Counts writes. -/
def count (r : Rendering) (workbook : Workbook) (tally : Tally) : Rendering :=
  { r with workbook := workbook, report.tally := r.report.tally.add tally }

/-- Reports warnings. -/
def warnAll (r : Rendering) (warnings : List Warning) : Rendering :=
  { r with report.warnings := r.report.warnings ++ warnings }

/-- The warning about values that a range has no room for. -/
def truncatedWarnings (target : String) (range : CellRange) (truncated : Nat) : List Warning :=
  if truncated = 0 then []
  else
    [⟨.dataTruncated, target,
      Text.natText truncated ++ " value(s) did not fit in " ++ range.text⟩]

/-- Carries out one step; `overwrite` is the section's. -/
def perform (overwrite : Bool) (r : Rendering) : Step → Rendering
  | .cell sheet c datum =>
    r.count (r.workbook.write sheet overwrite c datum)
      (Tally.zero.count (r.workbook.outcome sheet overwrite c))
  | .range target sheet range value =>
    let (workbook, filled) := r.workbook.fill sheet overwrite range value
    (r.count workbook filled.tally).warnAll (truncatedWarnings target range filled.truncated)
  | .table group dialect items sheet row =>
    let outcome := group.expandAt dialect items sheet row r.workbook
    (r.count outcome.workbook outcome.tally).warnAll outcome.warnings
  | .field name text => { r with report.flatFields := r.report.flatFields.insert name text }
  | .warn warning => r.warnAll [warning]

/-- Carries out steps one after the other. -/
def performAll (overwrite : Bool) (r : Rendering) (steps : List Step) : Rendering :=
  steps.foldl (perform overwrite) r

end Rendering

/-- Renders a section into a workbook. -/
def Workbook.render (workbook : Workbook) (desc : Section) (data : Tree) :
    Except Fault Rendering := do
  let sheet ← workbook.resolve desc.sheet
  let steps := Surroundings.steps ⟨workbook, sheet⟩ desc data
  .ok (Rendering.performAll desc.overwrite ⟨workbook, { id := desc.id, template := desc.template }⟩
    steps)

end SheetFill
