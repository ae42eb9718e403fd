import SheetFill.Fault
import SheetFill.Json.Reader
import SheetFill.Yaml.Reader

/-!
# Formats of documents

Plans and data are written in JSON or in YAML. A text that is no document of its format, or whose document is not of the
expected shape, is the format's fault.
-/

namespace SheetFill

/-- A format of documents. -/
inductive TextFormat where
  | json
  | yaml
deriving DecidableEq

namespace TextFormat

/-- The fault of a text that cannot be read. -/
def fault : TextFormat → Fault
  | json => .malformedJson
  | yaml => .malformedYaml

/-- The content of a text. -/
def content? : TextFormat → String → Option Content
  | json => Json.content?
  | yaml => Yaml.content?

/-- The data tree of a text, if there is one. -/
def tree? : TextFormat → String → Option Tree
  | json => Json.tree?
  | yaml => Yaml.tree?

/-- The data tree of a text. -/
def readData (format : TextFormat) (source : String) : Except Fault Tree :=
  match format.tree? source with
  | some t => .ok t
  | none => .error format.fault

end TextFormat

end SheetFill
