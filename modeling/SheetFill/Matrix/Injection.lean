import SheetFill.Matrix.Basic
import SheetFill.Path.Selection

/-!
# Injecting matrices into data

A plan may ask for matrices that are built from the data and stored in it, each under a key of the topmost record, before
any section is rendered. A matrix sees the data with the matrices before it.

Only a source expression that cannot be read fails. Data that is not there makes an empty matrix.
-/

namespace SheetFill

/-- A matrix to be built from the data and stored in it. -/
structure MatrixInjection where
  /-- The path of the records. -/
  source : String
  /-- The key that takes the matrix. -/
  target : Option String := none
  valuesOnly : Bool := false
  options : MatrixOptions := {}
deriving DecidableEq

/-- The matrix of the records that a path selects. -/
def Matrix.select (o : MatrixOptions) (valuesOnly : Bool) (source : String) (data : Tree) :
    Except Fault Matrix := do
  let selection ← (Dialect.of source).evaluate data source
  let matrix := build o (selection.items?.getD [])
  .ok (if valuesOnly then matrix.valuesOnly else matrix)

/-- Stores a matrix under a key of the topmost record; data that is no record is replaced by one. -/
def Matrix.inject (m : Matrix) (key : String) : Tree → Tree
  | .record fields => .record (Tree.insertField key m.tree fields)
  | _ => .record [(key, m.tree)]

namespace MatrixInjection

/-- The key that takes the matrix. -/
def key (injection : MatrixInjection) : String :=
  injection.target.getD
    (if injection.valuesOnly then "comparisonMatrixValues" else "comparisonMatrix")

/-- The data with the matrix stored in it. -/
def apply (injection : MatrixInjection) (data : Tree) : Except Fault Tree :=
  (Matrix.select injection.options injection.valuesOnly injection.source data).map fun m =>
    m.inject injection.key data

end MatrixInjection

/-- The data with several matrices stored in it, one after the other. -/
def injectAll : List MatrixInjection → Tree → Except Fault Tree
  | [], data => .ok data
  | injection :: rest, data => (injection.apply data).bind (injectAll rest)

end SheetFill
