import SheetFill.Number.Double

/-!
# Contents of cells

A cell holds a text, a number, a truth value or a formula; a formula is kept without its equality sign. `CellValue.empty`
is the content of a cell that holds nothing. An empty text is a content of its own.
-/

namespace SheetFill

/-- The content of one cell. -/
inductive CellValue where
  | empty
  | text (value : String)
  | number (value : Double)
  | boolean (value : Bool)
  /-- A formula without its equality sign. -/
  | formula (expression : String)
deriving DecidableEq, Inhabited

/-- The sort of content a cell has. -/
inductive CellKind where
  | empty
  | text
  | number
  | boolean
  | formula
deriving DecidableEq

namespace CellValue

/-- The sort of a content. -/
def kind : CellValue → CellKind
  | empty => .empty
  | text _ => .text
  | number _ => .number
  | boolean _ => .boolean
  | formula _ => .formula

/-- The content is a formula. -/
def isFormula : CellValue → Bool
  | formula _ => true
  | _ => false

/-- The text of a content that is one. -/
def asText? : CellValue → Option String
  | text s => some s
  | _ => none

/-- The number of a content that is one. -/
def asNumber? : CellValue → Option Double
  | number d => some d
  | _ => none

end CellValue

end SheetFill
