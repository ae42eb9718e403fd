import SheetFill.Number.Decimal
import SheetFill.Package.Archive
import SheetFill.Package.Basic
import SheetFill.Xml.Node

/-!
# Reading packages

A spreadsheet package is an archive with XML entries. The workbook entry names the sheets, its relations say in which entry
each one stands, and texts that several cells share stand in an entry of their own.

A cell without a position stands behind the one before it. A formula may be shared by the cells of a column or row; the
others then have it with its references moved along. Values that cannot be read make the package unreadable, while formulas
that cannot be read are left out for the whole sheet.
-/

namespace SheetFill.Package

open Xml (Node)

/-- The XML entries of a package. -/
abbrev Parts := List Entry

/-- The nodes of an XML entry: none without such an entry, and a fault in it is kept apart. -/
def part (parts : Parts) (name : String) : Option (Option (List Node)) :=
  (Archive.data? parts name).map fun data => (Archive.text? data).bind Xml.parse?

/-- A text of an attribute with its references resolved. -/
def resolvedText? (raw : List Char) : Option String :=
  (Xml.resolve? raw).map String.ofList

/-! ## Shared texts -/

/-- The text of the runs of a rich text, or the first plain one; annotations of the pronunciation do not count. -/
def runsText? : List Node → Option (Option (List Char))
  | [] => some none
  | n :: rest =>
    if n.hasName "r" then do
      let texts ← (n.elements.filter (·.hasName "t")).mapM Node.content?
      let more ← runsText? rest
      some (some (texts.flatten ++ more.getD []))
    else if n.hasName "t" then n.content?.map some
    else runsText? rest

/-- The text of an element that holds one. -/
def richText? (node : Node) : Option (Option String) :=
  (runsText? node.elements).map fun t => t.map String.ofList

/-- The texts that cells share. -/
def sharedTexts? (parts : Parts) : Option (List String) :=
  match part parts "xl/sharedStrings.xml" with
  | none => some []
  | some none => none
  | some (some nodes) =>
    ((Xml.named nodes "si").mapM richText?).map fun texts => texts.filterMap id

/-! ## Positions -/

/-- The positional value of letters in base 26. -/
def lettersValue (letters : List Char) : Nat :=
  letters.foldl (fun n c => n * 26 + (c.toUpper.toNat - 64)) 0

/-- A position: letters, then a row that is not zero. -/
def position? (cs : List Char) : Option Coordinate :=
  let letters := cs.takeWhile Char.isAlpha
  match Text.nat? (cs.drop letters.length) with
  | some (row + 1) => if letters = [] then none else some ⟨row, lettersValue letters - 1⟩
  | _ => none

/-- The row of a position, whether there are letters or not. -/
def row? (cs : List Char) : Option Nat :=
  match Text.nat? (cs.dropWhile Char.isAlpha) with
  | some (row + 1) => some row
  | _ => none

/-- Two corners, or one cell; the corners may be in any order. -/
def corners? (cs : List Char) : Option (Coordinate × Coordinate) :=
  match Text.splitOn ':' cs with
  | [one] => (position? one).map fun c => (c, c)
  | [first, last] => do
    let first ← position? first
    let last ← position? last
    some (first, last)
  | _ => none

/-! ## Values -/

/-- The texts of errors, and how they are shown. -/
def errorTexts : List (String × String) :=
  [("#DIV/0!", "#DIV/0!"), ("#N/A", "#N/A"), ("#NAME?", "#NAME?"), ("#NULL!", "#NULL!"),
    ("#NUM!", "#NUM!"), ("#REF!", "#REF!"), ("#VALUE!", "#VALUE!"), ("#GETTING_DATA", "#DATA!")]

/-- The number that a text writes, infinities and NaN among them. -/
def number? (cs : List Char) : Option Double :=
  match (Decimal.parse? cs).map Decimal.toDouble with
  | some d => some d
  | none =>
    let negative := cs.head? = some '-'
    let name := (if negative ∨ cs.head? = some '+' then cs.drop 1 else cs).map Char.toLower
    if name = "inf".toList ∨ name = "infinity".toList then
      some (Double.ofMagnitude negative Double.infinityBits)
    else if name = "nan".toList then
      some (Double.ofMagnitude negative (Double.infinityBits + pow2 51))
    else none

/-- The value of a cell by its type and the text between the tags of its value. -/
def valueOf? (shared : List String) (kind : Option String) (cs : List Char) : Option StoredValue :=
  match kind with
  | some "s" =>
    if cs = [] then some .empty else (shared[(Text.nat? cs).getD 0]?).map .text
  | some "b" => some (.boolean (cs ≠ ['0']))
  | some "e" => (errorTexts.lookup (String.ofList cs)).map .text
  | some "d" | some "str" => some (.text (String.ofList cs))
  | some "n" => if cs = [] then some .empty else (number? cs).map .number
  | none =>
    match number? cs with
    | some d => some (.number d)
    | none => some (.text (String.ofList cs))
  | _ => none

/-- The value that a child of a cell gives it. -/
def childValue? (shared : List String) (kind : Option String) (child : Node) :
    Option StoredValue :=
  if child.hasName "v" then child.content?.bind (valueOf? shared kind)
  else if child.hasName "is" then
    (richText? child).map fun t => (t.map StoredValue.text).getD .empty
  else if child.hasName "f" then some .empty
  else none

/-- The value of a cell, which its last child gives. -/
def cellValue? (shared : List String) (cell : Node) : Option StoredValue :=
  let kind := (cell.attribute? "t").map String.ofList
  (cell.elements.mapM (childValue? shared kind)).map fun values => values.getLast?.getD .empty

/-! ## Formulas -/

/-- A word of a formula with its row and column moved, if it names a cell. -/
def moveWord (rows columns : Nat) (word : List Char) : List Char :=
  match position? word with
  | some c =>
    if c.row + rows ≤ maxRow ∧ c.col + columns ≤ maxColumn then
      (Coordinate.mk (c.row + rows) (c.col + columns)).chars
    else word
  | none => word

/-- A formula with the references to cells moved. The words are runs of letters followed by digits; what stands between
quotes stays. -/
def moveFormula (rows columns : Nat) : List Char → Bool → List Char → List Char
  | [], _, word => moveWord rows columns word
  | c :: rest, quoted, word =>
    if c = '"' ∧ quoted then '"' :: moveFormula rows columns rest false word
    else if quoted then c :: moveFormula rows columns rest true word
    else if c = '"' then '"' :: moveFormula rows columns rest true word
    else if c.isAlpha then
      if word.any Char.isDigit then word ++ moveFormula rows columns rest false [c]
      else moveFormula rows columns rest false (word ++ [c])
    else if c.isDigit then moveFormula rows columns rest false (word ++ [c])
    else moveWord rows columns word ++ c :: moveFormula rows columns rest false []

/-- A formula that several cells share: where it stands and where its cells end. -/
structure SharedFormula where
  expression : List Char
  first : Coordinate
  last : Coordinate

/-- The formula at a position that shares it: the cells below the first one, or, in a single row, those to the right. -/
def SharedFormula.at? (f : SharedFormula) (c : Coordinate) : Option (List Char) :=
  if f.first.row ≠ f.last.row then
    if c.col = f.first.col ∧ f.first.row ≤ c.row ∧ c.row ≤ f.last.row then
      some (moveFormula (c.row - f.first.row) 0 f.expression false [])
    else none
  else if f.first.col ≠ f.last.col then
    if c.row = f.first.row ∧ f.first.col ≤ c.col ∧ c.col ≤ f.last.col then
      some (moveFormula 0 (c.col - f.first.col) f.expression false [])
    else none
  else none

/-- The shared formulas by their numbers. -/
abbrev SharedFormulas := List (Option SharedFormula)

/-- Notes a shared formula under a number. -/
def share (known : SharedFormulas) (number : Nat) (f : SharedFormula) : SharedFormulas :=
  known ++ List.replicate (number - known.length) none ++ [some f]

/-- The formula that a child of a cell gives it, after those before it. -/
def childFormula? (position : Coordinate) (state : Option (List Char) × SharedFormulas)
    (child : Node) : Option (Option (List Char) × SharedFormulas) :=
  if child.hasName "v" ∨ child.hasName "is" then some state
  else if !child.hasName "f" then none
  else do
    let cs ← child.content?
    if child.attribute? "t" = some "shared".toList then do
      let number ← (child.attribute? "si").bind Text.nat?
      match child.attribute? "ref" with
      | some ref => do
        let (first, last) ← corners? ref
        some (some cs, share state.2 number ⟨cs, first, last⟩)
      | none =>
        let moved := ((state.2[number]?).bind id).bind fun f => f.at? position
        some (some (moved.getD cs), state.2)
    else some (some cs, state.2)

/-! ## Sheets -/

/-- The cells of a row with their positions, the first one without a position at `position`. -/
def placeCells : List Node → Coordinate → Option (List (Coordinate × Node))
  | [], _ => some []
  | n :: rest, next =>
    if n.hasName "c" then do
      let position ← match n.attribute? "r" with
        | some r => position? r
        | none => some next
      let more ← placeCells rest ⟨next.row, position.col + 1⟩
      some ((position, n) :: more)
    else placeCells rest next

/-- The cells of rows with their positions, the first row without a number being `next`. -/
def placeRows : List Node → Nat → Option (List (Coordinate × Node))
  | [], _ => some []
  | n :: rest, next =>
    if n.hasName "row" then do
      let row ← match n.attribute? "r" with
        | some r => row? r
        | none => some next
      let cells ← placeCells n.elements ⟨row, 0⟩
      let more ← placeRows rest (row + 1)
      some (cells ++ more)
    else placeRows rest next

/-- The formulas of cells, in order; a fault in one leaves none. -/
def formulas? : List (Coordinate × Node) → SharedFormulas → Option (List (Option String))
  | [], _ => some []
  | (position, cell) :: rest, known => do
    let (f, known) ← cell.elements.foldlM (childFormula? position) (none, known)
    let more ← formulas? rest known
    some (f.map String.ofList :: more)

/-- The cells of a sheet. -/
def cells? (shared : List String) (nodes : List Node) : Option (List StoredCell) :=
  match (Xml.named nodes "sheetData").head? with
  | none => some []
  | some data => do
    let placed ← placeRows data.elements 0
    let values ← placed.mapM fun (_, cell) => cellValue? shared cell
    let formulas := (formulas? placed []).getD (placed.map fun _ => none)
    some ((placed.zip (values.zip formulas)).map fun ((position, _), value, formula) =>
      ⟨position, value, formula⟩)

/-- The merged regions of a sheet; one with its corners out of order does not count. -/
def merges? (nodes : List Node) : Option (List CellRange) :=
  (((Xml.named nodes "mergeCell").filterMap (·.attribute? "ref")).mapM corners?).map fun l =>
    l.filterMap fun (first, last) => CellRange.of? first last

/-- The extent that a sheet states, if it does, can be read. -/
def hasGoodExtent (nodes : List Node) : Bool :=
  (Xml.named nodes "dimension").all fun n => ((n.attribute? "ref").bind corners?).isSome

/-- The sheet in an entry. -/
def sheet? (parts : Parts) (shared : List String) (name path : String) : Option StoredSheet :=
  match part parts path with
  | some (some nodes) =>
    if hasGoodExtent nodes then do
      let cells ← cells? shared nodes
      let merges ← merges? nodes
      some ⟨name, cells, merges⟩
    else none
  | _ => none

/-! ## Workbooks -/

/-- The entries that relations lead to, by the relations' names. -/
def relations? (parts : Parts) : Option (List (List Char × String)) :=
  match part parts "xl/_rels/workbook.xml.rels" with
  | some (some nodes) =>
    (Xml.named nodes "Relationship").mapM fun n => do
      let id ← n.attribute? "Id"
      let target ← (n.attribute? "Target").bind resolvedText?
      some (id, target)
  | _ => none

/-- The name of the entry that a relation leads to. -/
def entryName (target : String) : String :=
  let cs := target.toList
  if cs.take 4 = "/xl/".toList then String.ofList (cs.drop 1)
  else if cs.take 3 = "xl/".toList then target
  else "xl/" ++ target

/-- The kinds of sheets, by the folder of their entries. -/
def isSheetEntry (path : String) : Bool :=
  match Text.splitOn '/' path.toList with
  | _ :: folder :: _ =>
    folder = "worksheets".toList || folder = "chartsheets".toList ||
      folder = "dialogsheets".toList || folder = "macrosheets".toList
  | _ => false

/-- The names of the sheets with the names of their entries. -/
def sheetEntries? (parts : Parts) : Option (List (String × String)) := do
  let relations ← relations? parts
  match part parts "xl/workbook.xml" with
  | none => some []
  | some none => none
  | some (some nodes) =>
    (Xml.named nodes "sheet").mapM fun n => do
      let name ← resolvedText? ((n.attribute? "name").getD [])
      let id ← n.attribute? "r:id"
      let path := entryName (← relations.lookup id)
      if isSheetEntry path then some (name, path) else none

/-- The package of XML entries. -/
def ofParts? (parts : Parts) : Option Package := do
  let shared ← sharedTexts? parts
  let sheets ← sheetEntries? parts
  sheets.mapM fun (name, path) => sheet? parts shared name path

/-- The package of the bytes of an archive. -/
def ofBytes (bytes : List UInt8) : Except Fault Package :=
  match (Archive.read? bytes).bind ofParts? with
  | some package => .ok package
  | none => .error .unreadableTemplate

end SheetFill.Package
