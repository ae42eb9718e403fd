import SheetFill.Number.Layout
import SheetFill.Package.Archive
import SheetFill.Package.Basic
import SheetFill.Xml.Printer

/-!
# Writing packages

A package is written as an archive with one entry for the workbook, one for every sheet, and those that say how they belong
together. A text stands in its cell, and the cells of a row stand in one element.
-/

namespace SheetFill.Package

open Xml (Node)

/-! ## Sheets -/

/-- The element with the value of a cell. -/
def valueNode (chars : List Char) : Node :=
  .element "v".toList [] [.text chars]

/-- The type of a cell, and the elements with its formula and its value. -/
def cellParts (value : StoredValue) (formula : Option String) :
    List (String × String) × List Node :=
  let formulaNodes := formula.toList.map fun f => Node.of "f" [] [.ofText f]
  match value with
  | .empty => ([], formulaNodes)
  | .number d => ([], formulaNodes ++ [valueNode (Layout.json.text d).toList])
  | .boolean b => ([("t", "b")], formulaNodes ++ [valueNode [if b then '1' else '0']])
  | .text s =>
    if formula = none then
      ([("t", "inlineStr")],
        [Node.of "is" [] [Node.of "t" [("xml:space", "preserve")] [.ofText s]]])
    else ([("t", "str")], formulaNodes ++ [valueNode (Xml.escaped s)])

/-- The element of a cell. -/
def cellNode (cell : StoredCell) : Node :=
  let (kind, children) := cellParts cell.value cell.formula
  Node.of "c" (("r", cell.position.text) :: kind) children

/-- The element of a row. -/
def rowNode (cells : List StoredCell) : Node :=
  let number := (cells.head?.map fun c => c.position.row + 1).getD 1
  Node.of "row" [("r", Text.natText number)] (cells.map cellNode)

/-- The name of a vocabulary of the package format, by its family, its year and its subject. -/
def vocabulary (parts : List String) : String :=
  "/".intercalate (["http:", "", "schemas.openxmlformats.org"] ++ parts)

/-- The vocabulary of sheets and workbooks. -/
def mainSpace : String := vocabulary ["spreadsheetml", "2006", "main"]

/-- The vocabulary of relations between the entries of a workbook. -/
def relationSpace : String := vocabulary ["officeDocument", "2006", "relationships"]

/-- A vocabulary of packages. -/
def packageSpace (subject : String) : String := vocabulary ["package", "2006", subject]

/-- The root element of a sheet. -/
def sheetNode (sheet : StoredSheet) : Node :=
  let rows := (sheet.cells.splitBy fun a b => a.position.row == b.position.row).map rowNode
  let merges := sheet.merges.map fun r => Node.of "mergeCell" [("ref", r.text)] []
  Node.of "worksheet" [("xmlns", mainSpace)]
    (Node.of "sheetData" [] rows ::
      if merges = [] then []
      else [Node.of "mergeCells" [("count", Text.natText merges.length)] merges])

/-! ## Workbooks -/

/-- The name of a relation by its number. -/
def relationName (number : Nat) : String :=
  "rId" ++ Text.natText number

/-- The entry of a sheet by its number, below the folder of the workbook. -/
def sheetPath (number : Nat) : String :=
  "worksheets/sheet" ++ Text.natText number ++ ".xml"

/-- The sheets with their numbers. -/
def numberedSheets (package : Package) : List (StoredSheet × Nat) :=
  package.zipIdx 1

/-- The root element of the workbook. -/
def workbookNode (package : Package) : Node :=
  Node.of "workbook" [("xmlns", mainSpace), ("xmlns:r", relationSpace)]
    [Node.of "sheets" [] ((numberedSheets package).map fun (sheet, n) =>
      Node.of "sheet"
        [("name", sheet.name), ("sheetId", Text.natText n), ("r:id", relationName n)] [])]

/-- A relation to an entry. -/
def relationNode (name kind target : String) : Node :=
  Node.of "Relationship"
    [("Id", name), ("Type", relationSpace ++ "/" ++ kind), ("Target", target)] []

/-- The root element of relations. -/
def relationsNode (relations : List Node) : Node :=
  Node.of "Relationships" [("xmlns", packageSpace "relationships")] relations

/-- The element that gives an entry its type. -/
def typeNode (path kind : String) : Node :=
  Node.of "Override"
    [("PartName", path),
      ("ContentType", "application/vnd.openxmlformats-officedocument.spreadsheetml." ++ kind ++ "+xml")]
    []

/-- The root element of the types of entries. -/
def typesNode (package : Package) : Node :=
  Node.of "Types" [("xmlns", packageSpace "content-types")]
    ([Node.of "Default"
        [("Extension", "rels"),
          ("ContentType", "application/vnd.openxmlformats-package.relationships+xml")] [],
      Node.of "Default" [("Extension", "xml"), ("ContentType", "application/xml")] [],
      typeNode "/xl/workbook.xml" "sheet.main"] ++
      (numberedSheets package).map fun (_, n) => typeNode ("/xl/" ++ sheetPath n) "worksheet")

/-- An entry with an XML document. -/
def xmlEntry (name : String) (root : Node) : Entry :=
  ⟨name, Archive.ofText root.document⟩

/-- The entries of a package. -/
def parts (package : Package) : List Entry :=
  [xmlEntry "[Content_Types].xml" (typesNode package),
    xmlEntry "_rels/.rels"
      (relationsNode [relationNode (relationName 1) "officeDocument" "xl/workbook.xml"]),
    xmlEntry "xl/workbook.xml" (workbookNode package),
    xmlEntry "xl/_rels/workbook.xml.rels"
      (relationsNode ((numberedSheets package).map fun (_, n) =>
        relationNode (relationName n) "worksheet" (sheetPath n)))] ++
    (numberedSheets package).map fun (sheet, n) => xmlEntry ("xl/" ++ sheetPath n) (sheetNode sheet)

/-- The bytes of a package. -/
def toBytes (package : Package) : List UInt8 :=
  Archive.write package.parts

end SheetFill.Package
