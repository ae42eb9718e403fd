import SheetFill.Cell.Address
import SheetFill.Cell.Column
import SheetFill.Cell.Coordinate
import SheetFill.Cell.Range
import SheetFill.CommandLine.Arguments
import SheetFill.CommandLine.Display
import SheetFill.CommandLine.Request
import SheetFill.CommandLine.Run
import SheetFill.Content.Basic
import SheetFill.Content.Printer
import SheetFill.Content.TextFormat
import SheetFill.Fault
import SheetFill.File.Path
import SheetFill.Fill.Coerce
import SheetFill.Fill.Range
import SheetFill.Fill.Write
import SheetFill.Group.Numbered
import SheetFill.Group.Table
import SheetFill.Json.Numeral
import SheetFill.Json.Reader
import SheetFill.Json.Token
import SheetFill.Matrix.Basic
import SheetFill.Matrix.Injection
import SheetFill.Number.Decimal
import SheetFill.Number.Double
import SheetFill.Number.Layout
import SheetFill.Number.Power
import SheetFill.Number.Shortest
import SheetFill.Package.Archive
import SheetFill.Package.Basic
import SheetFill.Package.Deflate
import SheetFill.Package.Reader
import SheetFill.Package.Writer
import SheetFill.Path.Segment
import SheetFill.Path.Selection
import SheetFill.Plan.Basic
import SheetFill.Plan.Printer
import SheetFill.Plan.Reader
import SheetFill.Plan.Variables
import SheetFill.Proofs.Cell.Address
import SheetFill.Proofs.Fill.Range
import SheetFill.Proofs.Fill.Write
import SheetFill.Proofs.Group.FaultyFields
import SheetFill.Proofs.Group.RowInsertion
import SheetFill.Proofs.Lists
import SheetFill.Proofs.Matrix.Placement
import SheetFill.Proofs.Path.Quoted
import SheetFill.Proofs.Render.Addresses
import SheetFill.Proofs.Render.Edits
import SheetFill.Proofs.Render.FaultIsolation
import SheetFill.Proofs.Render.Faults
import SheetFill.Proofs.Render.Frame
import SheetFill.Proofs.Render.Idempotence
import SheetFill.Proofs.Render.Insertions
import SheetFill.Proofs.Render.Protection
import SheetFill.Proofs.Render.Steps
import SheetFill.Proofs.Session.Calls
import SheetFill.Proofs.Session.Documents
import SheetFill.Proofs.Session.FailedCalls
import SheetFill.Proofs.Sheet.Content
import SheetFill.Proofs.Sheet.Edit
import SheetFill.Proofs.Sheet.Protection
import SheetFill.Proofs.Sheet.RepeatedWrites
import SheetFill.Proofs.Sheet.RowShift
import SheetFill.Proofs.Sheet.Workbook
import SheetFill.Proofs.Sheet.Writes
import SheetFill.Proofs.Template.Reference
import SheetFill.Proofs.Text.Digits
import SheetFill.Proofs.Text.Trim
import SheetFill.Render.Report
import SheetFill.Render.Section
import SheetFill.Render.Session
import SheetFill.Sheet.Basic
import SheetFill.Sheet.Cells
import SheetFill.Sheet.Value
import SheetFill.Sheet.Workbook
import SheetFill.Template.Reference
import SheetFill.Template.Source
import SheetFill.Text.Blank
import SheetFill.Text.CaseTable
import SheetFill.Text.Cut
import SheetFill.Text.Digits
import SheetFill.Text.LowerCase
import SheetFill.Text.TextMap
import SheetFill.Tree.Basic
import SheetFill.Tree.Printer
import SheetFill.Xml.Node
import SheetFill.Xml.Printer
import SheetFill.Yaml.Lines
import SheetFill.Yaml.Node
import SheetFill.Yaml.Printer
import SheetFill.Yaml.Reader
import SheetFill.Yaml.Resolution
import SheetFill.Yaml.Scalar
import SheetFill.Yaml.Token
import SheetFill.Main
import SheetFill.Proofs.Path.NodePath
import SheetFill.Proofs.Package.RowInsertion
import SheetFill.Proofs.Fill.WriteOrder
import SheetFill.Proofs.Render.MappingOrder
import SheetFill.Proofs.Json.Numeral
import SheetFill.Proofs.Json.Quoted
import SheetFill.Proofs.Json.RoundTrip
import SheetFill.Proofs.Plan.Fields
import SheetFill.Proofs.Plan.Parts
import SheetFill.Proofs.Content.Bounds
import SheetFill.Proofs.Plan.Bounds
import SheetFill.Proofs.Plan.RoundTrip
import SheetFill.Proofs.Sheet.Coverage
import SheetFill.Proofs.Fill.Accounting
import SheetFill.Proofs.Package.Loading
import SheetFill.Proofs.Package.RoundTrip
import SheetFill.Proofs.Package.Settling
import SheetFill.Proofs.Package.Storing
import SheetFill.Proofs.Fill.Chunks
import SheetFill.Proofs.Tree.Ordered
import SheetFill.Proofs.Path.Matching
import SheetFill.Proofs.Path.Grammar
import SheetFill.Proofs.Path.Join
import SheetFill.Proofs.Render.BasePath
import SheetFill.Proofs.Path.Derivation
import SheetFill.Proofs.Path.Dialects
import SheetFill.Proofs.Matrix.Layout
import SheetFill.Proofs.Matrix.Values
import SheetFill.Proofs.Matrix.LastEntry
import SheetFill.Proofs.Matrix.Growth
import SheetFill.Proofs.Matrix.Independence
import SheetFill.Proofs.Sheet.ShiftedRows
import SheetFill.Proofs.Sheet.MovedCover
import SheetFill.Proofs.Cell.Bounds
import SheetFill.Proofs.Group.NumberedNames
import SheetFill.Proofs.Group.TableAccounts
import SheetFill.Proofs.Fill.Words
import SheetFill.Proofs.Group.Words
import SheetFill.Proofs.Sheet.Addressable
import SheetFill.Proofs.Render.Addressable
import SheetFill.Proofs.Cell.ColumnName
import SheetFill.Proofs.Cell.Spelling
import SheetFill.Proofs.Cell.SheetName
import SheetFill.Proofs.Json.Nested
import SheetFill.Proofs.Template.Placeholders
import SheetFill.Proofs.Plan.SingleSection
import SheetFill.Proofs.Sheet.SparseRows
import SheetFill.Proofs.Sheet.Operations
import SheetFill.Proofs.Cell.ColumnKey
