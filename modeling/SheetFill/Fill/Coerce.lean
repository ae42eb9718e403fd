import SheetFill.Number.Decimal
import SheetFill.Sheet.Value
import SheetFill.Text.Blank
import SheetFill.Tree.Printer

/-!
# Cell contents from data

A number of the data becomes a number; so does a text that is the numeral of a finite double, blanks around it aside. Null
and the empty text leave the cell with nothing. Everything else keeps its text: truth values, other texts with their
blanks, and lists and records as one line of JSON. Data never becomes a formula.
-/

namespace SheetFill

/-- The content that a datum gives a cell. -/
def Tree.cellValue : Tree → CellValue
  | .null => .empty
  | .boolean b => .text (if b then "true" else "false")
  | .number n => .number n.toDouble
  | .text s =>
    if s = "" then .empty
    else
      match Decimal.finite? (Text.trim s.toList) with
      | some d => .number d
      | none => .text s
  | .list items => .text (compact (.list items))
  | .record fields => .text (compact (.record fields))

/-- Data never becomes a formula. -/
theorem Tree.isFormula_cellValue (t : Tree) : t.cellValue.isFormula = false := by
  cases t with
  | text s =>
    simp only [cellValue]
    split
    · rfl
    · split <;> rfl
  | null | boolean | number | list | record => rfl

end SheetFill
