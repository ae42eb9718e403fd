import SheetFill.Fault
import SheetFill.Fill.Write
import SheetFill.Text.TextMap

/-!
# Reports

Rendering a section gives a report: how many cells were written and how many were protected, the flat fields, and the
warnings in the order in which they came up.
-/

namespace SheetFill

/-- What became of a section. -/
structure Report where
  /-- The name of the section. -/
  id : String
  /-- The reference of the template. -/
  template : String
  tally : Tally := .zero
  flatFields : TextMap := .empty
  warnings : List Warning := []
deriving DecidableEq

end SheetFill
