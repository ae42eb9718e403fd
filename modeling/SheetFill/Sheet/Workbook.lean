import SheetFill.Fault
import SheetFill.Sheet.Basic

/-!
# Workbooks

A workbook is a list of sheets. A sheet is found by its name, the first of that name counting, and is then known by its
position. A position without a sheet reads as nothing and takes no content.
-/

namespace SheetFill

/-- Sheets in order. -/
structure Workbook where
  sheets : List Sheet
deriving DecidableEq, Inhabited

namespace Workbook

/-- The position of the sheet with a name, or of the first sheet when no name is given. -/
def resolve (workbook : Workbook) : Option String → Except Fault Nat
  | some name =>
    match workbook.sheets.findIdx? (·.name = name) with
    | some i => .ok i
    | none => .error (.unknownSheet name)
  | none => if workbook.sheets = [] then .error (.unknownSheet "<first sheet>") else .ok 0

/-- Adds a sheet at the end. -/
def add (workbook : Workbook) (sheet : Sheet) : Workbook :=
  ⟨workbook.sheets ++ [sheet]⟩

/-- The sheet at a position. -/
def sheet? (workbook : Workbook) (i : Nat) : Option Sheet :=
  workbook.sheets[i]?

/-- The sheet at a position; where there is none, a sheet that holds nothing. -/
def sheet (workbook : Workbook) (i : Nat) : Sheet :=
  (workbook.sheet? i).getD (.new "")

/-- The first sheet with a name. -/
def sheetNamed? (workbook : Workbook) (name : String) : Option Sheet :=
  workbook.sheets.find? (·.name = name)

/-- Changes the sheet at a position; where there is none, nothing changes. -/
def modify (workbook : Workbook) (i : Nat) (f : Sheet → Sheet) : Workbook :=
  ⟨workbook.sheets.modify i f⟩

/-- The content of a coordinate. -/
def content (workbook : Workbook) (i : Nat) (c : Coordinate) : CellValue :=
  (workbook.sheet i).content c

/-- Sets one cell. -/
def set (workbook : Workbook) (i : Nat) (c : Coordinate) (v : CellValue) : Workbook :=
  workbook.modify i (·.set c v)

/-- Makes room for rows on one sheet. -/
def shiftDown (workbook : Workbook) (i start count : Nat) : Workbook :=
  workbook.modify i (·.shiftDown start count)

/-- The names of the sheets. -/
def names (workbook : Workbook) : List String :=
  workbook.sheets.map (·.name)

end Workbook

end SheetFill
