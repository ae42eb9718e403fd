import SheetFill.Text.Blank
import SheetFill.Text.LowerCase
import SheetFill.Tree.Printer

/-!
# Comparison matrices

Records that each carry a list of entries in an order of their own are laid out as one table: a header row with the
record's labels, and below it one row for every distinct key, in the order in which keys are first met. Keys are the
same when they agree without blanks around them and without regard to case; a row shows the key as it was first written.

A record without a label has no column, and an entry without a key has no row. Where a record gives a key twice, the last
entry counts; an entry without a value counts as the empty text.
-/

namespace SheetFill

/-- The rows of a table. -/
abbrev Matrix := List (List Tree)

/-- The names of the fields from which a matrix is built, and its spacing. The spacings are numbers of 64 bits. Here they
have no bound: where one more than that would be counted the matrix would have more cells than any memory holds, and what
becomes of such a matrix is left out. -/
structure MatrixOptions where
  /-- The field of an entry that holds its key. -/
  keyField : String := "name"
  /-- The field of an entry that holds its value. -/
  valueField : String := "value"
  /-- The field of a record that holds its label. -/
  labelField : String := "planName"
  /-- The field of a record that holds its entries. -/
  entriesField : String := "benefits"
  /-- The text of the first cell. -/
  headerLabel : String := "Benefit"
  /-- How many empty columns stand before the column of a record. -/
  columnSpacing : Nat := 1
  /-- How many empty rows stand behind the row of a key. -/
  rowSpacing : Nat := 0
deriving DecidableEq, Inhabited

/-- The text of a scalar that may serve as a label or as a key. -/
def Tree.keyText? : Tree → Option String
  | .text s => some s
  | .number n => some (Tree.scalarText (.number n))
  | .boolean b => some (Tree.scalarText (.boolean b))
  | _ => none

namespace Matrix

/-- The cell that shows nothing. -/
def blank : Tree := .text ""

/-- What makes two keys the same. -/
def normalized (key : String) : String :=
  String.ofList (Text.lowerCase (Text.trim key.toList))

/-- An entry of a record: its normalized key, the key as it is written, and the value. -/
structure Entry where
  key : String
  display : String
  value : Tree
deriving DecidableEq

/-- A record with a label, and its entries. -/
structure Column where
  label : String
  entries : List Entry
deriving DecidableEq

/-- The value of an entry, the empty text when there is none. -/
def valueOf (o : MatrixOptions) (entry : Tree) : Tree :=
  match entry.field? o.valueField with
  | none | some .null => blank
  | some value => value

/-- The entry that a tree makes, if it has a key. -/
def entryOf? (o : MatrixOptions) (entry : Tree) : Option Entry :=
  ((entry.field? o.keyField).bind Tree.keyText?).map fun display =>
    ⟨normalized display, display, valueOf o entry⟩

/-- The entries of a record. -/
def entries (o : MatrixOptions) (record : Tree) : List Entry :=
  ((record.field? o.entriesField).getD .null).items.filterMap (entryOf? o)

/-- The column of a record, if it has a label. -/
def column? (o : MatrixOptions) (record : Tree) : Option Column :=
  ((record.field? o.labelField).bind Tree.keyText?).map fun label => ⟨label, entries o record⟩

/-- The columns of records. -/
def columns (o : MatrixOptions) (records : List Tree) : List Column :=
  records.filterMap (column? o)

/-- Of entries with the same key, the first. -/
def firstOfKeys : List Entry → List Entry
  | [] => []
  | e :: rest => e :: (firstOfKeys rest).filter (·.key ≠ e.key)

/-- The entries that first show each key, in the order in which keys are met. -/
def keyEntries (columns : List Column) : List Entry :=
  firstOfKeys (columns.flatMap (·.entries))

/-- The value that a column has for a key: that of the last entry with it. -/
def Column.valueAt (column : Column) (key : String) : Tree :=
  ((column.entries.reverse.find? (·.key = key)).map (·.value)).getD blank

/-- A cell behind the empty columns in front of it. -/
def spaced (o : MatrixOptions) (cell : Tree) : List Tree :=
  List.replicate o.columnSpacing blank ++ [cell]

/-- The row of the labels. -/
def headerRow (o : MatrixOptions) (columns : List Column) : List Tree :=
  .text o.headerLabel :: columns.flatMap fun c => spaced o (.text c.label)

/-- The row of a key. -/
def keyRow (o : MatrixOptions) (columns : List Column) (e : Entry) : List Tree :=
  .text e.display :: columns.flatMap fun c => spaced o (c.valueAt e.key)

/-- How many cells a row has. -/
def width (o : MatrixOptions) (columns : List Column) : Nat :=
  1 + columns.length * (1 + o.columnSpacing)

/-- The row of a key and the empty rows behind it. -/
def keyRows (o : MatrixOptions) (columns : List Column) (e : Entry) : Matrix :=
  keyRow o columns e ::
    List.replicate o.rowSpacing (List.replicate (width o columns) blank)

/-- The matrix of columns; without a column there is none. -/
def ofColumns (o : MatrixOptions) (columns : List Column) : Matrix :=
  if columns = [] then []
  else headerRow o columns :: (keyEntries columns).flatMap (keyRows o columns)

/-- The matrix of records. -/
def build (o : MatrixOptions) (records : List Tree) : Matrix :=
  ofColumns o (columns o records)

/-- A matrix without its first column, for a template that has the keys already. -/
def valuesOnly (m : Matrix) : Matrix :=
  m.map (·.drop 1)

/-- A matrix as a tree: a list of lists. -/
def tree (m : Matrix) : Tree :=
  .list (m.map .list)

end Matrix

end SheetFill
