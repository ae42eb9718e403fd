import SheetFill.Cell.Range
import SheetFill.Fill.Write

/-!
# Filling a range

A value is spread over a range by `CellRange.assign`: a list of lists row by row, any other list through the rows one after
the other, and anything else into the first cell. What the range has no room for is counted, not written.

Whether a list is a list of lists is decided by its first item alone; a later item that is no list is a row of one cell.
-/

namespace SheetFill

/-- The data of a row. -/
def Tree.rowCells : Tree → List Tree
  | .list cells => cells
  | other => [other]

/-- The list starts with a list. -/
def startsWithList : List Tree → Bool
  | .list _ :: _ => true
  | _ => false

namespace CellRange

/-- The data of a row that fit into the range, with their cells. -/
def assignRow (range : CellRange) (row : Tree) (r : Nat) : List (Coordinate × Tree) :=
  ((row.rowCells.take range.cols).zipIdx).map fun (datum, c) => (range.offset r c, datum)

/-- Rows that fit into the range, with their cells. -/
def assignRows (range : CellRange) (rows : List Tree) : List (Coordinate × Tree) :=
  ((rows.take range.rows).zipIdx).flatMap fun (row, r) => range.assignRow row r

/-- Data that fit into the range, row after row, with their cells. -/
def assignFlat (range : CellRange) (items : List Tree) : List (Coordinate × Tree) :=
  ((items.take (range.rows * range.cols)).zipIdx).map fun (datum, i) =>
    (range.offset (i / range.cols) (i % range.cols), datum)

/-- The cells of a range that a value gives data to, with the data, in the order of writing. -/
def assign (range : CellRange) : Tree → List (Coordinate × Tree)
  | .list items => if startsWithList items then range.assignRows items else range.assignFlat items
  | datum => [(range.first, datum)]

/-- How many data of rows the range has no room for. -/
def overflowRows (range : CellRange) (rows : List Tree) : Nat :=
  (rows.take range.rows).foldr (fun row n => row.rowCells.length - range.cols + n) 0 +
    (rows.drop range.rows).foldr (fun row n => row.rowCells.length + n) 0

/-- How many data of a value the range has no room for. -/
def overflow (range : CellRange) : Tree → Nat
  | .list items =>
    if startsWithList items then range.overflowRows items
    else items.length - range.rows * range.cols
  | _ => 0

end CellRange

/-- What became of the data for a range. -/
structure FillCount where
  tally : Tally
  truncated : Nat
deriving DecidableEq

/-- Fills a range with a value. -/
def Workbook.fill (workbook : Workbook) (i : Nat) (overwrite : Bool) (range : CellRange)
    (value : Tree) : Workbook × FillCount :=
  let (filled, tally) := writeAll i overwrite (range.assign value) (workbook, .zero)
  (filled, ⟨tally, range.overflow value⟩)

end SheetFill
