import SheetFill.CommandLine.Arguments
import SheetFill.Matrix.Basic
import SheetFill.Text.Digits

/-!
# Requests

The command line asks for one of three things: to render a plan, to print a comparison matrix, or to inspect a template.
Where an option is not given, a variable of the environment or a default may stand in for it.

The path of a file is never empty.
-/

namespace SheetFill.CommandLine

/-- A plan to be rendered. -/
structure RenderRequest where
  plan : String
  data : String
  output : String
  templateRoot : String := "."
  /-- The folder of the templates, in the place of the plan's. -/
  space : Option String := none
  /-- Values of placeholders, in the place of the plan's. -/
  bindings : List String := []
  /-- Where the flat fields are written. -/
  fieldsOut : Option String := none
  /-- Whether warnings are a failure. -/
  strict : Bool := false
  verbose : Bool := false
deriving DecidableEq

/-- A matrix to be printed. -/
structure MatrixRequest where
  data : String
  /-- The path of the records. -/
  source : String := "plans"
  options : MatrixOptions := {}
  valuesOnly : Bool := false
  yaml : Bool := false
deriving DecidableEq

/-- A template to be inspected. -/
structure InspectRequest where
  template : String
  verbose : Bool := false
deriving DecidableEq

/-- What the command line asks for. -/
inductive Request where
  | render (request : RenderRequest)
  | matrix (request : MatrixRequest)
  | inspect (request : InspectRequest)

/-- The options of each command. -/
def renderSwitches : List Switch :=
  [{ name := "output", letter := some 'o' },
    { name := "template-root", letter := some 't' },
    { name := "namespace", letter := some 'n' },
    { name := "var", arity := .values },
    { name := "fields-out" },
    { name := "strict", arity := .flag },
    { name := "verbose", letter := some 'v', arity := .flag }]

@[inherit_doc renderSwitches]
def matrixSwitches : List Switch :=
  [{ name := "source", letter := some 's' },
    { name := "key-field" },
    { name := "value-field" },
    { name := "label-field" },
    { name := "entries-field" },
    { name := "header-label" },
    { name := "column-spacing" },
    { name := "row-spacing" },
    { name := "values-only", arity := .flag },
    { name := "yaml", arity := .flag }]

@[inherit_doc renderSwitches]
def inspectSwitches : List Switch :=
  [{ name := "verbose", letter := some 'v', arity := .flag }]

/-- A value that is the path of a file. -/
def checkPath (name value : String) : Except Stop String :=
  if value = "" then .error (.usage (.badValue name value)) else .ok value

/-- A value that is a number of 64 bits, perhaps with a plus sign. -/
def checkCount (name value : String) : Except Stop Nat :=
  let digits := match value.toList with
    | '+' :: rest => rest
    | cs => cs
  match Text.natUpTo? Text.maxNat64 digits with
  | some n => .ok n
  | none => .error (.usage (.badValue name value))

/-- The path of an option, if it is given. -/
def Arguments.path? (a : Arguments) (name : String) : Except Stop (Option String) :=
  (a.value? name).mapM (checkPath name)

/-- The number of an option, or its default. -/
def Arguments.count (a : Arguments) (name : String) (default : Nat) : Except Stop Nat :=
  match a.value? name with
  | some value => checkCount name value
  | none => .ok default

/-- The first operand, which is a path, and those behind it. -/
def takePath (name : String) : List String → Except Stop (String × List String)
  | [] => .error (.usage (.missingOperand name))
  | argument :: rest => (checkPath name argument).map fun path => (path, rest)

/-- No operand is left. -/
def noMore : List String → Except Stop Unit
  | [] => .ok ()
  | argument :: _ => .error (.usage (.needlessOperand argument))

/-- The variables of the environment. -/
abbrev Environment := String → Option String

/-- Where templates are looked for: an option says it, or a variable of the environment. -/
def readRoot (environment : Environment) (a : Arguments) : Except Stop String :=
  checkPath "template-root"
    ((a.value? "template-root" <|> environment "DOCFILL_TEMPLATE_ROOT").getD ".")

/-- A request to render a plan. -/
def readRender (environment : Environment) (arguments : List String) : Except Stop Request := do
  let a ← Arguments.read renderSwitches arguments
  let (plan, rest) ← takePath "PLAN" a.operands
  let (data, rest) ← takePath "DATA" rest
  noMore rest
  match ← a.path? "output" with
  | none => .error (.usage (.missingOption "output"))
  | some output =>
    .ok (.render {
      plan := plan
      data := data
      output := output
      templateRoot := ← readRoot environment a
      space := a.value? "namespace" <|> environment "DOCFILL_NAMESPACE"
      bindings := a.values "var"
      fieldsOut := ← a.path? "fields-out"
      strict := a.has "strict"
      verbose := a.has "verbose" })

/-- The names of the fields of a matrix, and its spacing. -/
def readOptions (a : Arguments) : Except Stop MatrixOptions := do
  let o : MatrixOptions := {}
  .ok {
    keyField := (a.value? "key-field").getD o.keyField
    valueField := (a.value? "value-field").getD o.valueField
    labelField := (a.value? "label-field").getD o.labelField
    entriesField := (a.value? "entries-field").getD o.entriesField
    headerLabel := (a.value? "header-label").getD o.headerLabel
    columnSpacing := ← a.count "column-spacing" o.columnSpacing
    rowSpacing := ← a.count "row-spacing" o.rowSpacing }

/-- A request to print a matrix. -/
def readMatrix (arguments : List String) : Except Stop Request := do
  let a ← Arguments.read matrixSwitches arguments
  let (data, rest) ← takePath "DATA" a.operands
  noMore rest
  .ok (.matrix {
    data := data
    source := (a.value? "source").getD "plans"
    options := ← readOptions a
    valuesOnly := a.has "values-only"
    yaml := a.has "yaml" })

/-- A request to inspect a template. -/
def readInspect (arguments : List String) : Except Stop Request := do
  let a ← Arguments.read inspectSwitches arguments
  let (template, rest) ← takePath "TEMPLATE" a.operands
  noMore rest
  .ok (.inspect { template := template, verbose := a.has "verbose" })

/-- The names of the commands. -/
def commandNames : List String := ["render", "matrix", "inspect", "help"]

/-- What asks for help on a command, or on all of them. -/
def readHelp : List String → Stop
  | [] => .help
  | [name] => if commandNames.contains name then .help else .usage (.unknownCommand name)
  | _ :: argument :: _ => .usage (.unknownCommand argument)

/-- What the options in front of a command ask for. -/
def readGeneral (argument : String) : Stop :=
  match argument.toList with
  | '-' :: 'h' :: _ => .help
  | '-' :: 'V' :: _ => .version
  | _ =>
    if argument = "--help" then .help
    else if argument = "--version" then .version
    else .usage (.unknownCommand argument)

/-- What the command line asks for. -/
def Request.read (environment : Environment) : List String → Except Stop Request
  | [] => .error (.usage .noCommand)
  | "render" :: rest => readRender environment rest
  | "matrix" :: rest => readMatrix rest
  | "inspect" :: rest => readInspect rest
  | "help" :: rest => .error (readHelp rest)
  | argument :: _ => .error (readGeneral argument)

end SheetFill.CommandLine
