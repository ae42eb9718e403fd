import SheetFill.Content.Basic
import SheetFill.Yaml.Node
import SheetFill.Yaml.Resolution

/-!
# Reading YAML

A document is read as a data tree or as a content. In a tree every key is the text of a scalar as it is written, a key that
comes again takes the last value, and a double that is infinite or no number is null. In a content a key may be anything.

A tag of the common schema makes a scalar what it says or is refused; a tag of the document's own is refused.
-/

namespace SheetFill

namespace Yaml

/-- How many lists and records may stand inside each other. -/
def maxDepth : Nat := 128

/-- A tag of the common schema. -/
def commonTag (name : String) : String :=
  "tag:yaml.org,2002:" ++ name

/-- A tag of the document's own. -/
def isLocalTag (tag : Option String) : Bool :=
  match tag with
  | some t => t.toList.head? = some '!'
  | none => false

/-- The content of a resolved scalar. -/
def Resolved.content? (text : String) : Resolved → Option Content
  | .null => some .null
  | .boolean b => some (.boolean b)
  | .natural n => some (.natural n)
  | .integer i => some (.integer i)
  | .double d => some (.double d)
  | .text => some (.text text)
  | .refused => none

/-- The content of a scalar. -/
def scalarContent? (tag : Option String) (text : String) (plain : Bool) : Option Content :=
  let cs := text.toList
  match tag with
  | none => if plain then (resolve cs).content? text else some (.text text)
  | some t =>
    if isLocalTag tag then none
    else if t = commonTag "bool" then (boolean? cs).map .boolean
    else if t = commonTag "int" then (resolveInteger? cs).bind (·.content? text)
    else if t = commonTag "float" then (double? cs).map .double
    else if t = commonTag "null" then (if isNull cs then some .null else none)
    else some (.text text)

namespace Node

mutual

/-- The content of a node. -/
def content? : Node → Option Content
  | scalar tag text plain => scalarContent? tag text plain
  | list tag items =>
    if isLocalTag tag then none else (contents? items).map .list
  | record tag es =>
    if isLocalTag tag then none else (entryContents? es).map .entries

/-- The contents of items. -/
def contents? : List Node → Option (List Content)
  | [] => some []
  | n :: rest => do
    let c ← n.content?
    let cs ← contents? rest
    some (c :: cs)

/-- The contents of keys and values. -/
def entryContents? : List (Node × Node) → Option (List (Content × Content))
  | [] => some []
  | (k, v) :: rest => do
    let k ← k.content?
    let v ← v.content?
    let es ← entryContents? rest
    some ((k, v) :: es)

end

/-- The text of a scalar as it is written. -/
def key? : Node → Option String
  | scalar _ text _ => some text
  | _ => none

/-- The scalar of a data tree. -/
def scalarTree? (tag : Option String) (text : String) (plain : Bool) : Option Tree :=
  match scalarContent? tag text plain with
  | some (.double d) => some (if d.isFinite then .number (.double d) else .null)
  | some c => c.tree?
  | none => none

mutual

/-- The data tree of a node. -/
def tree? : Node → Option Tree
  | scalar tag text plain => scalarTree? tag text plain
  | list tag items => if isLocalTag tag then none else (trees? items).map .list
  | record tag es =>
    if isLocalTag tag then none else (fields? es).map Tree.ofFields

/-- The data trees of items. -/
def trees? : List Node → Option (List Tree)
  | [] => some []
  | n :: rest => do
    let t ← n.tree?
    let ts ← trees? rest
    some (t :: ts)

/-- The fields of keys and values. -/
def fields? : List (Node × Node) → Option (List (String × Tree))
  | [] => some []
  | (k, v) :: rest => do
    let key ← k.key?
    let t ← v.tree?
    let fields ← fields? rest
    some ((key, t) :: fields)

end

end Node

/-- The node of a YAML text, if it is not too deep. -/
def boundedNode? (text : String) : Option Node :=
  (node? text.toList).filter fun n => n.depth ≤ maxDepth

/-- The content of a YAML text. -/
def content? (text : String) : Option Content :=
  (boundedNode? text).bind Node.content?

/-- The data tree of a YAML text. -/
def tree? (text : String) : Option Tree :=
  (boundedNode? text).bind Node.tree?

end Yaml

end SheetFill
