import SheetFill.Cell.Address
import SheetFill.Fill.Write
import SheetFill.Group.Numbered

/-!
# Tables

With a start cell a repeating group writes one row for every item, from the row of that cell on. Its keys name columns of
the sheet by letters or numbers; only the row of the start cell counts. If rows are to be inserted, everything from the
row of an item on first moves down by one.

A key that names no column and a path that cannot be read are reported, the latter for every item. Items past the last
row of the sheet are dropped and reported.
-/

namespace SheetFill

/-- What became of the items of a table. -/
structure TableOutcome where
  workbook : Workbook
  rows : Nat
  tally : Tally
  warnings : List Warning

namespace RepeatingGroup

/-- The text of the start cell. -/
def startText (group : RepeatingGroup) : String :=
  group.startCell.getD ""

/-- The sheet and the row where the table starts. -/
def start (group : RepeatingGroup) (workbook : Workbook) (defaultSheet : Nat) :
    Except Fault (Nat × Nat) := do
  let address ← CellAddress.parse group.startText
  let sheet ← match address.sheet with
    | some name => workbook.resolve (some name)
    | none => .ok defaultSheet
  .ok (sheet, address.cell.row)

/-- The columns with their paths. -/
def columns (group : RepeatingGroup) : List (Nat × String) :=
  group.fields.entries.filterMap fun (key, path) =>
    match Column.ofKey key with
    | .ok col => some (col, path)
    | .error _ => none

/-- The warnings about keys that name no column. -/
def columnWarnings (group : RepeatingGroup) : List Warning :=
  group.fields.entries.filterMap fun (key, _) =>
    match Column.ofKey key with
    | .ok _ => none
    | .error fault => some (fault.warning key)

/-- The cells of a row with their data. -/
def rowData (group : RepeatingGroup) (dialect : Dialect) (item : Tree) (row : Nat) :
    List (Coordinate × Tree) :=
  group.columns.filterMap fun (col, path) =>
    match dialect.evaluate item path with
    | .ok selection => some (⟨row, col⟩, selection.tree)
    | .error _ => none

/-- Writes the row of one item. -/
def writeRow (group : RepeatingGroup) (dialect : Dialect) (sheet row : Nat) (item : Tree)
    (state : Workbook × Tally) : Workbook × Tally :=
  let workbook := if group.insertRows then state.1.shiftDown sheet row 1 else state.1
  Workbook.writeAll sheet group.overwrite (group.rowData dialect item row) (workbook, state.2)

/-- Writes the rows of items, the first one at `row`. -/
def writeRows (group : RepeatingGroup) (dialect : Dialect) (sheet : Nat) :
    Nat → List Tree → Workbook × Tally → Workbook × Tally
  | _, [], state => state
  | row, item :: rest, state =>
    writeRows group dialect sheet (row + 1) rest (group.writeRow dialect sheet row item state)

/-- The warning about items past the last row. -/
def droppedWarnings (group : RepeatingGroup) (dropped : Nat) : List Warning :=
  if dropped = 0 then []
  else
    [⟨.dataTruncated, group.startText,
      Text.natText dropped ++ " item(s) past the last sheet row dropped"⟩]

/-- How many of the items at hand fit below the row where the table starts. -/
def roomFor (group : RepeatingGroup) (row available : Nat) : Nat :=
  min (group.itemCount available) (maxRow + 1 - row)

/-- Writes a table that starts at a row of a sheet. -/
def expandAt (group : RepeatingGroup) (dialect : Dialect) (items : List Tree) (sheet row : Nat)
    (workbook : Workbook) : TableOutcome :=
  let count := group.roomFor row items.length
  let written := items.take count
  let (filled, tally) := group.writeRows dialect sheet row written (workbook, .zero)
  { workbook := filled
    rows := count
    tally := tally
    warnings := group.columnWarnings ++
      written.flatMap (pathWarnings (group.columns.map Prod.snd) dialect) ++
      group.droppedWarnings (group.itemCount items.length - count) }

/-- Writes a table. -/
def expandTable (group : RepeatingGroup) (dialect : Dialect) (items : List Tree)
    (defaultSheet : Nat) (workbook : Workbook) : Except Fault TableOutcome := do
  let (sheet, row) ← group.start workbook defaultSheet
  .ok (group.expandAt dialect items sheet row workbook)

end RepeatingGroup

end SheetFill
