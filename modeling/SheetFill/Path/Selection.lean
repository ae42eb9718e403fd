import SheetFill.Path.Segment
import SheetFill.Tree.Printer

/-!
# Selecting nodes by a path

A path is walked from the root, a list of current nodes at a time. Data that is not there is no fault: the selection is
missing. From the first wildcard on the selection is a projection, which may be empty and stays one.
-/

namespace SheetFill

/-- What a path selects in a tree. -/
inductive Selection where
  | missing
  | one (node : Tree)
  | many (nodes : List Tree)
deriving DecidableEq

/-- The item at a position; a negative position counts from the end. -/
def itemAt? (items : List Tree) (position : Int) : Option Tree :=
  if position < 0 then
    if position.natAbs ≤ items.length then items[items.length - position.natAbs]? else none
  else items[position.toNat]?

/-- The nodes that a segment selects below a node, in order. -/
def Segment.select : Segment → Tree → List Tree
  | .field name, .record fields => (fields.lookup name).toList
  | .field name, .list items => ((Text.int64? name.toList).bind (itemAt? items)).toList
  | .index i, .list items => (itemAt? items i).toList
  | .wildcard, .list items => items
  | .wildcard, .record fields => fields.map Prod.snd
  | _, _ => []

/-- What segments select below the current nodes; `projected` says whether a wildcard came before. -/
def walkFrom (projected : Bool) (current : List Tree) : List Segment → Selection
  | [] =>
    if projected then .many current
    else
      match current with
      | [] => .missing
      | node :: _ => .one node
  | segment :: rest =>
    let projected := projected || segment == .wildcard
    match current.flatMap segment.select with
    | [] => if projected then walkFrom projected [] rest else .missing
    | next => walkFrom projected next rest

/-- What segments select in a tree. -/
def walk (tree : Tree) (segments : List Segment) : Selection :=
  walkFrom false [tree] segments

/-- What an expression selects in a tree. -/
def Dialect.evaluate (dialect : Dialect) (tree : Tree) (expression : String) :
    Except Fault Selection :=
  (dialect.parse expression).map (walk tree)

namespace Selection

/-- Nothing is selected. -/
def isMissing : Selection → Bool
  | .missing => true
  | _ => false

/-- The node, when exactly one is selected without a wildcard. -/
def node? : Selection → Option Tree
  | .one node => some node
  | _ => none

/-- The items of a selected list, or the nodes of a projection. -/
def items? : Selection → Option (List Tree)
  | .one (.list items) => some items
  | .many nodes => some nodes
  | _ => none

/-- The selection as a tree; a projection becomes a list. -/
def tree? : Selection → Option Tree
  | .missing => none
  | .one node => some node
  | .many nodes => some (.list nodes)

/-- The selection as a tree, null when it is missing. -/
def tree (s : Selection) : Tree :=
  s.tree?.getD .null

/-- The text of a selection for a flat field. -/
def text : Selection → String
  | .missing => ""
  | .one node => node.scalarText
  | .many nodes => (Tree.list nodes).compact

end Selection

end SheetFill
