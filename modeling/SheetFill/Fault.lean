import SheetFill.Text.Digits

/-!
# Faults

Everything that can go wrong is a value of `Fault`, named for its cause. The wording stands in one place, `Fault.message`;
`Fault.code` gives the machine-readable code that errors and warnings share, and `FaultCode.category` says to whom a
fault of that code belongs.
-/

namespace SheetFill

/-- Who has to act on a fault. -/
inductive Category where
  | notFound
  | badRequest
  | internal
deriving DecidableEq, Repr

/-- The codes that errors and warnings carry. -/
inductive FaultCode where
  | invalidRange
  | invalidCellReference
  | unknownSheet
  | invalidColumnKey
  | invalidPath
  | basePathNotSequence
  | missingBasePath
  | dataTruncated
  | templateNotFound
  | unresolvedPlaceholder
  | templateParseFailed
  | exportFailed
  | ioError
  | configParseFailed
deriving DecidableEq, Repr

/-- The name of a code as it is shown. -/
def FaultCode.text : FaultCode → String
  | .invalidRange => "INVALID_RANGE"
  | .invalidCellReference => "INVALID_CELL_REFERENCE"
  | .unknownSheet => "UNKNOWN_SHEET"
  | .invalidColumnKey => "INVALID_COLUMN_KEY"
  | .invalidPath => "INVALID_PATH"
  | .basePathNotSequence => "BASE_PATH_NOT_SEQUENCE"
  | .missingBasePath => "MISSING_BASE_PATH"
  | .dataTruncated => "DATA_TRUNCATED"
  | .templateNotFound => "TEMPLATE_NOT_FOUND"
  | .unresolvedPlaceholder => "UNRESOLVED_PLACEHOLDER"
  | .templateParseFailed => "TEMPLATE_PARSE_FAILED"
  | .exportFailed => "EXPORT_FAILED"
  | .ioError => "IO_ERROR"
  | .configParseFailed => "CONFIG_PARSE_FAILED"

/-- A missing template is not found, broken files are internal, and all else is the request's. -/
def FaultCode.category : FaultCode → Category
  | .templateNotFound => .notFound
  | .templateParseFailed | .exportFailed | .ioError => .internal
  | _ => .badRequest

/-- Why a text is not a cell reference. -/
inductive CellFault where
  | missingRow
  | missingColumn
  | badColumn
  | badRow
  | rowOutOfBounds
  | notACell
deriving DecidableEq, Repr

/-- The reason in words. -/
def CellFault.text : CellFault → String
  | .missingRow => "missing row number"
  | .missingColumn => "missing column letters"
  | .badColumn => "invalid column letters"
  | .badRow => "invalid row number"
  | .rowOutOfBounds => "row out of bounds"
  | .notACell => "expected A1-style cell"

/-- Why a text is not a path expression. -/
inductive PathFault where
  | dollarInDotted
  | noFieldName
  | noDollar
  | recursiveDescent
  | unexpected (c : Char)
  | unterminatedKey
  | invalidIndex (digits : String)
  | badBracket
  | noClosingBracket
deriving DecidableEq, Repr

/-- The reason in words. -/
def PathFault.text : PathFault → String
  | .dollarInDotted => "'$' expressions belong to the jsonPath dialect"
  | .noFieldName => "expected a field name"
  | .noDollar => "jsonPath expressions must start with '$'"
  | .recursiveDescent => "recursive descent '..' is not supported"
  | .unexpected c => "unexpected character '" ++ c.toString ++ "'"
  | .unterminatedKey => "unterminated quoted key"
  | .invalidIndex digits => "invalid index '" ++ digits ++ "'"
  | .badBracket => "expected index, '*' or quoted key inside brackets"
  | .noClosingBracket => "expected ']'"

/-- What can go wrong, by cause. -/
inductive Fault where
  /-- A file cannot be read or written. -/
  | fileAccess (path : String)
  /-- A text is no YAML document of the expected shape. -/
  | malformedYaml
  /-- A text is no JSON document of the expected shape. -/
  | malformedJson
  | cellReference (reference : String) (cause : CellFault)
  | invalidRange (text : String)
  | unknownSheet (name : String)
  | invalidColumnKey (key : String)
  /-- A path expression fails at a position, counted in characters read. -/
  | pathSyntax (expression : String) (cause : PathFault) (position : Nat)
  /-- No template has this reference; `tried` lists the paths looked at, if there were any. -/
  | templateNotFound (reference : String) (tried : List String)
  | unresolvedPlaceholders (reference : String) (names : List String)
  /-- A template is no spreadsheet package. -/
  | unreadableTemplate
  /-- A workbook cannot be stored, or its file cannot be written. -/
  | exportRefused
  | emptyPlan
  | variableWithoutValue (argument : String)
  | variableWithoutName (argument : String)
  /-- A strict render ended with warnings. -/
  | strictWarnings (count : Nat)
deriving DecidableEq, Repr

namespace Fault

/-- The code of a fault. -/
def code : Fault → FaultCode
  | fileAccess _ => .ioError
  | malformedYaml | malformedJson => .configParseFailed
  | cellReference _ _ => .invalidCellReference
  | invalidRange _ => .invalidRange
  | unknownSheet _ => .unknownSheet
  | invalidColumnKey _ => .invalidColumnKey
  | pathSyntax _ _ _ => .invalidPath
  | templateNotFound _ _ => .templateNotFound
  | unresolvedPlaceholders _ _ => .unresolvedPlaceholder
  | unreadableTemplate => .templateParseFailed
  | exportRefused => .exportFailed
  | emptyPlan | variableWithoutValue _ | variableWithoutName _ | strictWarnings _ =>
    .configParseFailed

/-- What is said about a template, behind the code in brackets. -/
def templateText (code : FaultCode) (description : String) : String :=
  "[" ++ code.text ++ "] " ++ description

/-- The message of a fault. -/
def message : Fault → String
  | fileAccess path => "IO error: cannot read or write " ++ path
  | malformedYaml => "YAML parsing error: not a document of the expected shape"
  | malformedJson => "JSON parsing error: not a document of the expected shape"
  | cellReference reference cause =>
    "Invalid cell reference '" ++ reference ++ "': " ++ cause.text
  | invalidRange text => "Invalid range '" ++ text ++ "', expected start:end"
  | unknownSheet name => "Sheet '" ++ name ++ "' not found in workbook"
  | invalidColumnKey key => "Invalid column key '" ++ key ++ "'"
  | pathSyntax expression cause position =>
    "Invalid path expression '" ++ expression ++ "': " ++ cause.text ++ " (at position " ++
      Text.natText position ++ ")"
  | templateNotFound reference tried =>
    templateText .templateNotFound ("Template '" ++ reference ++ "' not found" ++
      if tried = [] then "" else " (tried " ++ ", ".intercalate tried ++ ")")
  | unresolvedPlaceholders reference names =>
    templateText .unresolvedPlaceholder ("Template reference '" ++ reference ++
      "' has unresolved placeholder(s): " ++ ", ".intercalate names)
  | unreadableTemplate => templateText .templateParseFailed "Not a readable spreadsheet package"
  | exportRefused => "Export error: the workbook cannot be stored"
  | emptyPlan => "Configuration error: plan has no sections"
  | variableWithoutValue argument =>
    "Configuration error: expected key=value, got '" ++ argument ++ "'"
  | variableWithoutName argument =>
    "Configuration error: empty variable name in '" ++ argument ++ "'"
  | strictWarnings count =>
    "Configuration error: " ++ Text.natText count ++ " render warning(s) in strict mode"

end Fault

/-- A problem that did not stop a render: a code, the mapping it concerns, and what happened. -/
structure Warning where
  code : FaultCode
  target : String
  message : String
deriving DecidableEq, Repr

/-- The warning that a fault at `target` becomes. -/
def Fault.warning (fault : Fault) (target : String) : Warning :=
  ⟨fault.code, target, fault.message⟩

/-- The line that shows a warning. -/
def Warning.text (w : Warning) : String :=
  "[" ++ w.code.text ++ "] " ++ w.target ++ ": " ++ w.message

section

variable {ε α β : Type}

/-- A computation in two parts succeeds when both do. -/
theorem bind_eq_ok_iff {first : Except ε α} {next : α → Except ε β} {result : β} :
    first >>= next = .ok result ↔ ∃ value, first = .ok value ∧ next value = .ok result := by
  cases first <;> simp [bind, Except.bind]

/-- A computation in two parts fails when one does, the first part first. -/
theorem bind_eq_error_iff {first : Except ε α} {next : α → Except ε β} {fault : ε} :
    first >>= next = .error fault ↔
      first = .error fault ∨ ∃ value, first = .ok value ∧ next value = .error fault := by
  cases first <;> simp [bind, Except.bind]

/-- A computation whose result is passed on succeeds when it does. -/
theorem map_eq_ok_iff {computation : Except ε α} {f : α → β} {result : β} :
    computation.map f = .ok result ↔ ∃ value, computation = .ok value ∧ f value = result := by
  cases computation <;> simp [Except.map]

end

end SheetFill
