import SheetFill.Tree.Basic

/-!
# Contents of a document

A JSON or YAML document is first read into its `Content`, which keeps everything that a description of a plan may depend
on: the order of entries, repeated keys, keys that are no texts, and whether an integer carries a sign.

Data is then the tree of a content: entries by key, the last value of a repeated key.
-/

namespace SheetFill

/-- What a JSON or YAML document says. -/
inductive Content where
  | null
  | boolean (value : Bool)
  /-- An integer without a sign, of at most 64 bits. -/
  | natural (value : Nat)
  /-- An integer with a minus sign, of at most 64 bits. -/
  | integer (value : Int)
  | double (value : Double)
  | text (value : String)
  | list (items : List Content)
  /-- Keys and values in the order in which they are written. -/
  | entries (entries : List (Content × Content))
deriving Inhabited

namespace Content

/-- The text of a key that is one. -/
def key? : Content → Option String
  | text s => some s
  | _ => none

mutual

/-- The data tree of a content; a key has to be a text. -/
def tree? : Content → Option Tree
  | null => some .null
  | boolean b => some (.boolean b)
  | natural n => some (.number (.integer n))
  | integer i => some (.number (.integer i))
  | double d => some (.number (.double d))
  | text s => some (.text s)
  | list items => (trees? items).map .list
  | entries es => (fields? es).map Tree.ofFields

/-- The data trees of items. -/
def trees? : List Content → Option (List Tree)
  | [] => some []
  | c :: rest => do
    let t ← c.tree?
    let ts ← trees? rest
    some (t :: ts)

/-- The fields of entries, as they are written. -/
def fields? : List (Content × Content) → Option (List (String × Tree))
  | [] => some []
  | (k, c) :: rest => do
    let key ← k.key?
    let t ← c.tree?
    let fields ← fields? rest
    some ((key, t) :: fields)

end

end Content

end SheetFill
