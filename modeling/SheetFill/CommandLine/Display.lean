import SheetFill.CommandLine.Request
import SheetFill.Number.Layout
import SheetFill.Package.Basic
import SheetFill.Plan.Basic
import SheetFill.Render.Session

/-!
# What a command shows

The lines that a command prints: what a render starts from, what became of each document and how the render ended, and what
an inspection finds in a template.
-/

namespace SheetFill.CommandLine

open Text (natText)

/-! ## Rendering -/

/-- What a render starts from. -/
def RenderRequest.heading (request : RenderRequest) : List String :=
  ["📄 Docfill - Rendering templates",
    "   Plan:      " ++ request.plan,
    "   Data:      " ++ request.data,
    "   Templates: " ++ request.templateRoot,
    ""]

/-- What a plan holds. -/
def planSummary (plan : Plan) : List String :=
  ["   " ++ natText plan.sections.length ++ " section(s), " ++ natText plan.matrices.length ++
      " matrix injection(s), namespace " ++ plan.templateSpace,
    ""]

/-- What became of a section. -/
def reportLines (verbose : Bool) (report : Report) : List String :=
  ("      " ++ report.id ++ " " ++ natText report.tally.written ++ " written, " ++
      natText report.tally.skipped ++ " skipped, " ++ natText report.flatFields.entries.length ++
      " flat field(s)") ::
    (report.warnings.map fun w => "      ⚠️ " ++ w.text) ++
    if verbose then
      report.flatFields.entries.map fun (name, value) => "         " ++ name ++ " = " ++ value
    else []

/-- What became of a document that is written at a path. -/
def documentLines (verbose : Bool) (document : Document) (path : String) : List String :=
  ("   📊 " ++ document.template ++ " → " ++ path) ::
    document.reports.flatMap (reportLines verbose)

/-- Where the flat fields are written. -/
def fieldsLine (path : String) : String :=
  "   Flat fields: " ++ path

/-- How a render ended. -/
def renderEnding (warnings : Nat) : List String :=
  ["", if warnings = 0 then "✅ Render complete"
    else "⚠️  Render complete with " ++ natText warnings ++ " warning(s)"]

/-! ## Inspecting -/

/-- The file that is inspected. -/
def InspectRequest.heading (request : InspectRequest) : List String :=
  ["🔍 Docfill - Template Inspection", "   File: " ++ request.template, ""]

/-- The content of a cell. -/
def contentText : CellValue → String
  | .empty => ""
  | .text s => s
  | .number d => Layout.inspection.text d
  | .boolean b => if b then "true" else "false"
  | .formula f => "=" ++ f

/-- The merged regions and the cells of a sheet. -/
def sheetDetails (sheet : Sheet) : List String :=
  (sheet.merges.map fun r => "         merge " ++ r.text) ++
    sheet.cells.entries.map fun (c, v) => "         " ++ c.text ++ " " ++ contentText v

/-- What an inspection finds in a sheet. -/
def sheetLines (verbose : Bool) (sheet : Sheet) : List String :=
  let rows := (sheet.lastRow?.map (· + 1)).getD 0
  let formulas := sheet.cells.entries.countP fun e => e.2.isFormula
  ["   📊 Sheet: " ++ sheet.name,
    "      Used rows: " ++ natText rows,
    "      Cells:     " ++ natText sheet.cells.entries.length,
    "      Merges:    " ++ natText sheet.merges.length,
    "      Formulas:  " ++ natText formulas] ++
    (if verbose then sheetDetails sheet else []) ++ [""]

/-- What an inspection finds in a workbook. -/
def workbookLines (verbose : Bool) (workbook : Workbook) : List String :=
  workbook.sheets.flatMap (sheetLines verbose)

/-! ## Requests that are not run -/

/-- The name of the program and its version. -/
def versionLine : String := "docfill 1.0.0"

/-- How the program is called. -/
def helpLines : List String :=
  ["Fill XLSX templates from nested JSON/YAML data.",
    "",
    "Usage: docfill <COMMAND>",
    "",
    "Commands:",
    "  render   Render a plan against a data file",
    "  matrix   Print a comparison matrix as JSON or YAML",
    "  inspect  Show the layout of a template",
    "  help     Print this message",
    "",
    "Options:",
    "  -h, --help     Print help",
    "  -V, --version  Print version"]

end SheetFill.CommandLine
