import SheetFill.Sheet.Workbook
import SheetFill.Text.LowerCase

/-!
# Stored workbooks

A spreadsheet package stores for every sheet its cells, each with a value and perhaps a formula, and its merged regions. A
formula cell always has a value too, the last known result; a formula without any text leaves only that.

A package hands out the values of a sheet and its formulas as two blocks. A block says where it starts and what it holds by
the distance from there, so that loading adds the two. Values are loaded first, and formulas take their places.

Storing a workbook asks a library for its packages: `Package.Rules` are what that library takes and what it puts down. By
the rules of spreadsheets it is refused where a package has no place for something: a sheet name that is empty, too long,
holds a forbidden character or repeats another, merged regions that overlap, a text that is too long, or a position past
the last row or column. What a merged region covers is not stored, whatever the rules.

Bytes come in only at the end: a `Package.Format` writes packages and reads them.
-/

namespace SheetFill

/-- The value of a stored cell. -/
inductive StoredValue where
  | empty
  | text (value : String)
  | number (value : Double)
  | boolean (value : Bool)
deriving DecidableEq

/-- A stored cell. -/
structure StoredCell where
  position : Coordinate
  value : StoredValue
  formula : Option String
deriving DecidableEq

/-- A stored sheet. -/
structure StoredSheet where
  name : String
  cells : List StoredCell
  merges : List CellRange
deriving DecidableEq

/-- The sheets of a package. -/
abbrev Package := List StoredSheet

/-- The content of a stored value; an empty text is none. -/
def StoredValue.content : StoredValue → CellValue
  | .empty => .empty
  | .text s => if s = "" then .empty else .text s
  | .number d => .number d
  | .boolean b => .boolean b

namespace Package

/-! ## Blocks -/

/-- What cells hold, as a package hands it out: the first row and the first column in use, and the contents by how many rows
and columns they are away from there. -/
structure Block (α : Type) where
  start : Coordinate
  used : List (Coordinate × α)

namespace Block

variable {α : Type}

/-- The first row and the first column of positions. -/
def corner (c : Coordinate) (positions : List Coordinate) : Coordinate :=
  positions.foldl (fun start c => ⟨min start.row c.row, min start.col c.col⟩) c

/-- The block of what cells hold; where none holds anything there is no block. -/
def of? : List (Coordinate × α) → Option (Block α)
  | [] => none
  | (c, x) :: rest =>
    let start := corner c (rest.map Prod.fst)
    some ⟨start, ((c, x) :: rest).map fun (c, x) => (⟨c.row - start.row, c.col - start.col⟩, x)⟩

/-- The cell at a distance from the start of a block. -/
def position (block : Block α) (offset : Coordinate) : Coordinate :=
  ⟨block.start.row + offset.row, block.start.col + offset.col⟩

end Block

/-- The value that a package hands out for a stored cell, if it has one. -/
def value? (cell : StoredCell) : Option StoredValue :=
  if cell.value = .empty then none else some cell.value

/-- A part of the cells of a stored sheet with the positions of the cells that have it. -/
def partsOf {α : Type} (part? : StoredCell → Option α) (cells : List StoredCell) : List (Coordinate × α) :=
  cells.filterMap fun cell => (part? cell).map fun x => (cell.position, x)

/-! ## Loading -/

/-- A formula without blanks around it and equality signs in front, unless nothing is left. -/
def formulaText? (formula : String) : Option String :=
  match (Text.trim formula.toList).dropWhile (· = '=') with
  | [] => none
  | cs => some (String.ofList cs)

/-- Takes over a value; an empty one leaves the cell as it is. -/
def readValue (cells : Cells) (c : Coordinate) (value : StoredValue) : Cells :=
  match value.content with
  | .empty => cells
  | v => cells.set c v

/-- Takes over a formula in the place of the cell's value; a blank one leaves the cell as it is. -/
def readFormula (cells : Cells) (c : Coordinate) (formula : String) : Cells :=
  match formulaText? formula with
  | some f => cells.set c (.formula f)
  | none => cells

/-- Takes over what a block holds, one cell after the other. -/
def readBlock {α : Type} (read : Cells → Coordinate → α → Cells) (cells : Cells) :
    Option (Block α) → Cells
  | none => cells
  | some block =>
    block.used.foldl (fun cells entry => read cells (block.position entry.1) entry.2) cells

/-- The sheet that a stored sheet makes. -/
def loadSheet (stored : StoredSheet) : Sheet :=
  let values := readBlock readValue .none (Block.of? (partsOf value? stored.cells))
  let cells := readBlock readFormula values (Block.of? (partsOf StoredCell.formula stored.cells))
  stored.merges.foldl Sheet.merge { name := stored.name, cells := cells, merges := [] }

/-- The workbook that a package makes. -/
def load (package : Package) : Workbook :=
  ⟨package.map loadSheet⟩

/-! ## Storing -/

/-- The library that writes packages, as the storing of a workbook meets it: what it takes, and what it puts down for a
text, for a number and beside a formula. -/
structure Rules where
  /-- A name that a sheet may have. -/
  takesName : String → Bool
  /-- Names that the sheets of a package may have beside each other. -/
  takesNames : List String → Bool
  /-- Merged regions that a sheet may have beside each other. -/
  takesMerges : List CellRange → Bool
  /-- A content that the cell at a position may have. -/
  takesCell : Coordinate → CellValue → Bool
  /-- The value that is stored for a text, if one is. -/
  textValue? : String → Option StoredValue
  /-- The value that is stored for a number. -/
  numberValue : Double → StoredValue
  /-- The value that is stored beside a formula, whose result is not known. -/
  formulaResult : StoredValue

/-- The cells of a sheet that no merged region covers. -/
def visibleCells (sheet : Sheet) : List (Coordinate × CellValue) :=
  sheet.cells.entries.filter fun e => !decide (sheet.Suppressed e.1)

/-- The merged regions of more than one cell. -/
def realMerges (sheet : Sheet) : List CellRange :=
  sheet.merges.filter fun r => !decide r.IsSingle

namespace Rules

variable (rules : Rules)

/-- The stored cell of a content, if one is stored. -/
def storeCell (c : Coordinate) : CellValue → Option StoredCell
  | .empty => none
  | .text s => (rules.textValue? s).map fun value => ⟨c, value, none⟩
  | .number d => some ⟨c, rules.numberValue d, none⟩
  | .boolean b => some ⟨c, .boolean b, none⟩
  | .formula f => some ⟨c, rules.formulaResult, some f⟩

/-- A sheet that a package can store. -/
def isStorableSheet (sheet : Sheet) : Bool :=
  rules.takesName sheet.name && rules.takesMerges (realMerges sheet) &&
    (visibleCells sheet).all fun e => rules.takesCell e.1 e.2

/-- The stored sheet of a sheet. -/
def storeSheet (sheet : Sheet) : StoredSheet :=
  { name := sheet.name
    cells := (visibleCells sheet).filterMap fun e => rules.storeCell e.1 e.2
    merges := realMerges sheet }

/-- The package of a workbook; one without a sheet is stored with an empty one. -/
def store (workbook : Workbook) : Except Fault Package :=
  if workbook.sheets = [] then .ok [⟨"Sheet1", [], []⟩]
  else if workbook.sheets.all rules.isStorableSheet && rules.takesNames workbook.names then
    .ok (workbook.sheets.map rules.storeSheet)
  else .error .exportRefused

end Rules

/-! ## The rules of spreadsheets -/

/-- The longest name of a sheet. -/
def maxNameLength : Nat := 31

/-- The longest text of a cell. -/
def maxTextLength : Nat := 32767

/-- A character that no name of a sheet may hold. -/
def isForbidden (c : Char) : Bool :=
  c == '[' || c == ']' || c == ':' || c == '*' || c == '?' || c == '/' || c == '\\'

/-- A name that a stored sheet may have. -/
def isSheetName (name : String) : Bool :=
  let cs := name.toList
  cs ≠ [] && decide (cs.length ≤ maxNameLength) && !cs.any isForbidden && cs.head? ≠ some '\'' &&
    cs.getLast? ≠ some '\''

/-- Names that differ in more than case. -/
def areDistinct (names : List String) : Bool :=
  decide ((names.map fun n => Text.lowerCase n.toList).Nodup)

/-- A position that a package can store. -/
def isInside (c : Coordinate) : Bool :=
  decide (c.row ≤ maxRow ∧ c.col ≤ maxColumn)

/-- A content that a package can store. -/
def isStorable : CellValue → Bool
  | .text s => decide (s.length ≤ maxTextLength)
  | _ => true

/-- What is written for a number that is infinite or none. -/
def numberName (d : Double) : String :=
  if d.isNaN then "NAN" else if d.isNegative then "-INF" else "INF"

/-- The rules of the spreadsheets that are read and written here. A number that is infinite or none is stored as a text, an
empty text not at all, and zero beside a formula. -/
def Rules.spreadsheet : Rules where
  takesName := isSheetName
  takesNames := areDistinct
  takesMerges regions :=
    regions.all (fun r => isInside r.first && isInside r.last) &&
      decide (regions.Pairwise fun a b => ¬ a.Overlaps b)
  takesCell c v := isInside c && isStorable v
  textValue? s := if s = "" then none else some (.text s)
  numberValue d := if d.isFinite then .number d else .text (numberName d)
  formulaResult := .number (Double.ofNat 0)

/-- The package of a workbook by the rules of spreadsheets. -/
def store (workbook : Workbook) : Except Fault Package :=
  Rules.spreadsheet.store workbook

/-! ## Files -/

/-- A way of storing workbooks as packages, of writing these as bytes and of reading them. -/
structure Format (Bytes : Type) where
  rules : Rules
  write : Package → Bytes
  read : Bytes → Except Fault Package

namespace Format

variable {Bytes : Type} (format : Format Bytes)

/-- The bytes of a workbook. -/
def save (workbook : Workbook) : Except Fault Bytes :=
  (format.rules.store workbook).map format.write

/-- The workbook that bytes make. -/
def load (bytes : Bytes) : Except Fault Workbook :=
  (format.read bytes).map Package.load

end Format

end Package

end SheetFill
