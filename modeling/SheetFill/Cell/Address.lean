import SheetFill.Cell.Range

/-!
# Addresses with a sheet

A mapping names a cell or a range, perhaps on another sheet: the sheet's name stands in front of the last exclamation
mark. A name in single quotes is read without them, and a doubled quote inside it is one quote.

Whether a mapping targets a range or a single cell is decided by a colon behind the sheet's name, before anything else
is read.
-/

namespace SheetFill

/-- Reads each doubled quote as one. -/
def undouble : List Char → List Char
  | '\'' :: '\'' :: cs => '\'' :: undouble cs
  | c :: cs => c :: undouble cs
  | [] => []

/-- The text between two quotes that stand first and last. -/
def betweenQuotes? : List Char → Option (List Char)
  | '\'' :: cs => if cs.getLast? = some '\'' then some cs.dropLast else none
  | _ => none

/-- The name of a sheet, written with or without quotes. -/
def sheetName (cs : List Char) : List Char :=
  let trimmed := Text.trim cs
  match betweenQuotes? trimmed with
  | some inner => undouble inner
  | none => trimmed

/-- The sheet in front of the last exclamation mark, and what follows it without blanks around it. -/
def splitSheet (cs : List Char) : Option String × List Char :=
  match Text.cutLast '!' cs with
  | some (sheet, rest) => (some (String.ofList (sheetName sheet)), Text.trim rest)
  | none => (none, Text.trim cs)

/-- A reference targets a range when a colon follows the sheet's name. -/
def isRangeReference (reference : String) : Bool :=
  ':' ∈ (splitSheet reference.toList).2

/-- A cell, perhaps on a named sheet. -/
structure CellAddress where
  sheet : Option String
  cell : Coordinate
deriving DecidableEq

/-- A range, perhaps on a named sheet. -/
structure RangeAddress where
  sheet : Option String
  range : CellRange
deriving DecidableEq

/-- Reads the address of a cell. -/
def CellAddress.parse (reference : String) : Except Fault CellAddress :=
  let (sheet, rest) := splitSheet reference.toList
  match Coordinate.parseChars rest with
  | .ok cell => .ok ⟨sheet, cell⟩
  | .error _ => .error (.cellReference reference .notACell)

/-- Reads the address of a range. -/
def RangeAddress.parse (reference : String) : Except Fault RangeAddress :=
  let (sheet, rest) := splitSheet reference.toList
  match CellRange.parseChars rest with
  | .ok range => .ok ⟨sheet, range⟩
  | .error _ => .error (.invalidRange reference)

end SheetFill
