import SheetFill.CommandLine.Display
import SheetFill.Package.Reader
import SheetFill.Package.Writer
import SheetFill.Plan.Reader
import SheetFill.Plan.Variables
import SheetFill.Template.Source
import SheetFill.Yaml.Printer

/-!
# Running a request

A request is run in a `Shell`, which reads and writes files and prints lines. A render reads its plan, its data and its
templates before it writes anything; then the documents are written one after the other, and the flat fields last. The first
fault ends a run, and what was written before stays.

`run` is the whole program: what was asked for is run, and the ending says how.
-/

namespace SheetFill.CommandLine

/-- What a request needs from its surroundings. -/
structure Shell (m : Type → Type) where
  /-- Whether a path leads to a file. -/
  isFile : String → m Bool
  /-- The bytes of a file, if it can be read. -/
  read? : String → m (Option (List UInt8))
  /-- Writes a file; false if it cannot be written. -/
  write : String → List UInt8 → m Bool
  /-- Prints a line. -/
  print : String → m Unit

/-- How a run ended. -/
structure Ending where
  exitCode : Nat
  /-- What is said about a failure. -/
  errorLines : List String

variable {m : Type → Type} [Monad m]

/-- The format of the files that hold workbooks. -/
def spreadsheet : Package.Format (List UInt8) := ⟨.spreadsheet, Package.toBytes, Package.ofBytes⟩

namespace Shell

/-- Prints lines. -/
def printAll (shell : Shell m) (lines : List String) : ExceptT Fault m Unit :=
  lines.forM fun line => ExceptT.lift (shell.print line)

/-- The text of a file. -/
def readText (shell : Shell m) (path : String) : ExceptT Fault m String := do
  match (← ExceptT.lift (shell.read? path)).bind Package.Archive.text? with
  | some text => return text
  | none => throw (.fileAccess path)

/-- The format of a file, by its name. -/
def formatOf (path : String) : TextFormat :=
  if FilePath.isJson path then .json else .yaml

/-- The plan in a file. -/
def readPlan (shell : Shell m) (path : String) : ExceptT Fault m Plan := do
  ExceptT.mk (pure (Plan.read (formatOf path) (← shell.readText path)))

/-- The data in a file. -/
def readData (shell : Shell m) (path : String) : ExceptT Fault m Tree := do
  ExceptT.mk (pure ((formatOf path).readData (← shell.readText path)))

/-- The workbook in a file. -/
def readWorkbook (shell : Shell m) (path : String) : ExceptT Fault m Workbook := do
  match ← ExceptT.lift (shell.read? path) with
  | some bytes => ExceptT.mk (pure (spreadsheet.load bytes))
  | none => throw .unreadableTemplate

/-- Writes a workbook to a file. -/
def writeWorkbook (shell : Shell m) (path : String) (workbook : Workbook) :
    ExceptT Fault m Unit := do
  let bytes ← ExceptT.mk (pure (spreadsheet.save workbook))
  if ← ExceptT.lift (shell.write path bytes) then return
  throw .exportRefused

/-- The template with a reference, at the first path that leads to a file. -/
def readTemplate (shell : Shell m) (root space reference : String) :
    ExceptT Fault m Workbook := do
  let paths := Template.candidates root space reference
  match ← paths.findM? fun path => ExceptT.lift (shell.isFile path) with
  | some path => shell.readWorkbook path
  | none => throw (.templateNotFound reference paths)

/-- The templates that a plan names, by name space and reference, each with its workbook or the fault of reading it. -/
def readTemplates (shell : Shell m) (root : String) (plan : Plan) :
    m (List ((String × String) × Except Fault Workbook)) :=
  let references := plan.sections.filterMap fun s =>
    (Template.resolve s.template plan.bindings).toOption
  references.eraseDups.mapM fun reference => do
    return ((plan.templateSpace, reference), ← (shell.readTemplate root plan.templateSpace reference).run)

end Shell

/-- Templates by their name spaces and references. -/
def storeOf (templates : List ((String × String) × Except Fault Workbook)) : TemplateStore := fun space reference =>
  (templates.lookup (space, reference)).getD (.error (.templateNotFound reference []))

/-! ## Rendering -/

/-- Writes and shows documents, the first one at a position among all. -/
def writeDocuments (shell : Shell m) (request : RenderRequest) (count : Nat) :
    Nat → List Document → ExceptT Fault m Unit
  | _, [] => return
  | index, document :: rest => do
    let path := FilePath.numbered request.output index count
    shell.writeWorkbook path document.workbook
    shell.printAll (documentLines request.verbose document path)
    writeDocuments shell request count (index + 1) rest

/-- The flat fields of all sections as a record. -/
def flatFields (reports : List Report) : Tree :=
  Tree.ofFields ((reports.flatMap fun r => r.flatFields.entries).map fun (name, value) =>
    (name, .text value))

/-- Writes the flat fields to a file. -/
def writeFields (shell : Shell m) (path : String) (reports : List Report) :
    ExceptT Fault m Unit := do
  if ← ExceptT.lift (shell.write path (Package.Archive.ofText (flatFields reports).pretty)) then
    shell.printAll [fieldsLine path]
  else throw (.fileAccess path)

/-- The plan with what the command line says in its place. -/
def RenderRequest.adjust (request : RenderRequest) (plan : Plan) : Except Fault Plan :=
  (readVariables request.bindings).map fun bindings =>
    { plan with
      bindings := .ofList (plan.bindings.entries ++ bindings.entries)
      space := request.space <|> plan.space }

/-- Renders a plan. -/
def RenderRequest.run (request : RenderRequest) (shell : Shell m) : ExceptT Fault m Unit := do
  shell.printAll request.heading
  let planned ← shell.readPlan request.plan
  let data ← shell.readData request.data
  let plan ← ExceptT.mk (pure (request.adjust planned))
  if request.verbose then shell.printAll (planSummary plan)
  let templates ← ExceptT.lift (shell.readTemplates request.templateRoot plan)
  let documents ← ExceptT.mk (pure (plan.render (storeOf templates) data))
  writeDocuments shell request documents.length 0 documents
  let reports := documents.flatMap (·.reports)
  match request.fieldsOut with
  | some path => writeFields shell path reports
  | none => pure ()
  let warnings := (reports.flatMap (·.warnings)).length
  shell.printAll (renderEnding warnings)
  if request.strict ∧ warnings ≠ 0 then throw (.strictWarnings warnings)

/-! ## The other requests -/

/-- Prints a matrix. -/
def MatrixRequest.run (request : MatrixRequest) (shell : Shell m) : ExceptT Fault m Unit := do
  let data ← shell.readData request.data
  let matrix ← ExceptT.mk (pure
    (Matrix.select request.options request.valuesOnly request.source data))
  shell.printAll [if request.yaml then Yaml.print matrix.tree else matrix.tree.pretty]

/-- Shows what a template holds. -/
def InspectRequest.run (request : InspectRequest) (shell : Shell m) : ExceptT Fault m Unit := do
  shell.printAll request.heading
  if ← ExceptT.lift (shell.isFile request.template) then
    let workbook ← shell.readWorkbook request.template
    shell.printAll (workbookLines request.verbose workbook)
  else throw (.templateNotFound request.template [])

namespace Request

/-- Runs a request. -/
def run (shell : Shell m) : Request → ExceptT Fault m Unit
  | render request => request.run shell
  | matrix request => request.run shell
  | inspect request => request.run shell

/-- What failed when a request fails. -/
def failureText : Request → String
  | render request => "render failed for plan " ++ request.plan
  | matrix request => "matrix failed for " ++ request.data
  | inspect request => "inspect failed for " ++ request.template

/-- What is said about the fault that ended a request. -/
def failureLines (request : Request) (fault : Fault) : List String :=
  ["Error: " ++ request.failureText, "", "Caused by:"] ++
    (Text.splitOn '\n' fault.message.toList).map fun line => "    " ++ String.ofList line

end Request

/-- The whole program. -/
def run (shell : Shell m) (environment : Environment) (arguments : List String) : m Ending := do
  match Request.read environment arguments with
  | .ok request =>
    match ← (request.run shell).run with
    | .ok () => return ⟨0, []⟩
    | .error fault => return ⟨1, request.failureLines fault⟩
  | .error (.usage fault) => return ⟨2, ["error: " ++ fault.message]⟩
  | .error .version => do
    shell.print versionLine
    return ⟨0, []⟩
  | .error .help => do
    helpLines.forM shell.print
    return ⟨0, []⟩

end SheetFill.CommandLine
