import SheetFill.Matrix.Injection
import SheetFill.Text.Blank
import SheetFill.Text.TextMap

/-!
# Plans

A plan says how templates are filled. Its sections are rendered one after the other; each names a template and maps cells
and ranges to path expressions. Groups of mappings may have a base path of their own, and a repeating group turns every
item of a list into a row of a table or into numbered fields.
-/

namespace SheetFill

/-- Where the number of an item stands in the name of a numbered field. -/
inductive IndexPosition where
  | beforeField
  | afterField
deriving DecidableEq

/-- How the items of a list are repeated: as rows from a start cell on, or as numbered fields. -/
structure RepeatingGroup where
  /-- The cell where the table starts; without it the group makes numbered fields. -/
  startCell : Option String := none
  namePrefix : Option String := none
  nameSuffix : Option String := none
  /-- The number of the first item. -/
  startIndex : Int := 1
  /-- What stands between the number and the key of a numbered field. -/
  indexSeparator : Option String := none
  indexPosition : IndexPosition := .beforeField
  /-- How many items are repeated at most. -/
  maxItems : Option Nat := none
  /-- Every item gets a new row, and what stood there moves down. -/
  insertRows : Bool := false
  overwrite : Bool := true
  /-- The path of each column or field, within an item. -/
  fields : TextMap := .empty
deriving DecidableEq

namespace RepeatingGroup

/-- The group makes rows of a table: it has a start cell that is not blank. -/
def isTable (group : RepeatingGroup) : Bool :=
  match group.startCell with
  | some cell => Text.trim cell.toList ≠ []
  | none => false

/-- How many of the items at hand are repeated. -/
def itemCount (group : RepeatingGroup) (available : Nat) : Nat :=
  match group.maxItems with
  | some most => min most available
  | none => available

end RepeatingGroup

/-- Mappings with a base path and a dialect of their own. -/
structure FieldGroup where
  basePath : Option String := none
  /-- The dialect of the paths; without it the section's. -/
  dialect : Option Dialect := none
  /-- The path of each cell, range or field, below the base path. -/
  fields : TextMap := .empty
  repeating : Option RepeatingGroup := none
deriving DecidableEq

/-- A template and what is filled into it. -/
structure Section where
  id : String := ""
  /-- The reference of the template, perhaps with placeholders. -/
  template : String
  /-- The sheet of references that name none; without it the first sheet. -/
  sheet : Option String := none
  /-- Whether mappings may replace what a cell holds. -/
  overwrite : Bool := false
  dialect : Dialect := .dotted
  /-- The path of each cell or range. -/
  mappings : TextMap := .empty
  groups : List FieldGroup := []
deriving DecidableEq

/-- Sections, and what they have in common. -/
structure Plan where
  /-- The folder of the templates. -/
  space : Option String := none
  /-- The values of placeholders in references of templates. -/
  bindings : TextMap := .empty
  matrices : List MatrixInjection := []
  sections : List Section
deriving DecidableEq

namespace Plan

/-- The folder of the templates of a plan that names none. -/
def defaultSpace : String := "common-templates"

/-- The folder of the templates of a plan. -/
def templateSpace (plan : Plan) : String :=
  plan.space.getD defaultSpace

/-- The plan of one section. -/
def single (s : Section) : Plan := { sections := [s] }

/-- The data with the matrices that a plan asks for. -/
def prepare (plan : Plan) (data : Tree) : Except Fault Tree :=
  injectAll plan.matrices data

end Plan

end SheetFill
