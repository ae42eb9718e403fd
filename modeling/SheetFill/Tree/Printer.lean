import SheetFill.Tree.Basic
import SheetFill.Number.Layout

/-!
# Trees as JSON text

A tree is printed in one line without spaces, or over several lines with two spaces for each level. Both forms write a
text in double quotes, escape the quote, the backslash and the control characters, and leave every other character as it
is; an empty list or record is written without a line of its own.

`scalarText` is the text that a flat field shows: a scalar without quotes, nothing for null, and JSON for the rest.
-/

namespace SheetFill

namespace Json

/-- A digit of base sixteen, in lower case. -/
def hexDigit (n : Nat) : Char :=
  Char.ofNat (if n < 10 then 48 + n else 87 + n)

/-- A character inside a quoted text. -/
def escape (c : Char) : List Char :=
  if c = '"' then ['\\', '"']
  else if c = '\\' then ['\\', '\\']
  else if c = '\x08' then ['\\', 'b']
  else if c = '\t' then ['\\', 't']
  else if c = '\n' then ['\\', 'n']
  else if c = '\x0c' then ['\\', 'f']
  else if c = '\r' then ['\\', 'r']
  else if c.toNat < 32 then
    ['\\', 'u', '0', '0', hexDigit (c.toNat / 16), hexDigit (c.toNat % 16)]
  else [c]

/-- A text in quotes. -/
def quote (s : String) : List Char :=
  '"' :: (s.toList.flatMap escape ++ ['"'])

end Json

/-- The text of a number in JSON. -/
def Number.chars : Number → List Char
  | .integer i => Text.ofInt i
  | .double d => (Layout.json.text d).toList

namespace Tree

mutual

/-- A tree in one line. -/
def compactChars : Tree → List Char
  | .null => "null".toList
  | .boolean b => (if b then "true" else "false").toList
  | .number n => n.chars
  | .text s => Json.quote s
  | .list items => '[' :: (compactItems items ++ [']'])
  | .record fields => '\x7b' :: (compactFields fields ++ ['\x7d'])

/-- Items with commas between them. -/
def compactItems : List Tree → List Char
  | [] => []
  | [t] => t.compactChars
  | t :: rest => t.compactChars ++ ',' :: compactItems rest

/-- Fields with commas between them. -/
def compactFields : List (String × Tree) → List Char
  | [] => []
  | [(k, t)] => Json.quote k ++ ':' :: t.compactChars
  | (k, t) :: rest => Json.quote k ++ ':' :: (t.compactChars ++ ',' :: compactFields rest)

end

/-- A new line with two spaces for each level. -/
def lineStart (level : Nat) : List Char :=
  '\n' :: List.replicate (2 * level) ' '

mutual

/-- A tree over several lines; what it holds stands one level deeper. -/
def prettyChars (level : Nat) : Tree → List Char
  | .null => "null".toList
  | .boolean b => (if b then "true" else "false").toList
  | .number n => n.chars
  | .text s => Json.quote s
  | .list [] => ['[', ']']
  | .list (t :: rest) =>
    '[' :: (lineStart (level + 1) ++ t.prettyChars (level + 1) ++ prettyItems level rest)
  | .record [] => ['\x7b', '\x7d']
  | .record ((k, t) :: rest) =>
    '\x7b' :: (lineStart (level + 1) ++ Json.quote k ++ ':' :: ' ' ::
      (t.prettyChars (level + 1) ++ prettyFields level rest))

/-- The items behind the first one, and the closing bracket. -/
def prettyItems (level : Nat) : List Tree → List Char
  | [] => lineStart level ++ [']']
  | t :: rest =>
    ',' :: (lineStart (level + 1) ++ t.prettyChars (level + 1) ++ prettyItems level rest)

/-- The fields behind the first one, and the closing brace. -/
def prettyFields (level : Nat) : List (String × Tree) → List Char
  | [] => lineStart level ++ ['\x7d']
  | (k, t) :: rest =>
    ',' :: (lineStart (level + 1) ++ Json.quote k ++ ':' :: ' ' ::
      (t.prettyChars (level + 1) ++ prettyFields level rest))

end

/-- A tree as one line of JSON. -/
def compact (t : Tree) : String :=
  String.ofList t.compactChars

/-- A tree as JSON over several lines. -/
def pretty (t : Tree) : String :=
  String.ofList (t.prettyChars 0)

/-- The text shown for a tree: a scalar without quotes, nothing for null, JSON for a list or a record. -/
def scalarText : Tree → String
  | .null => ""
  | .text s => s
  | .boolean b => if b then "true" else "false"
  | .number n => String.ofList n.chars
  | .list items => compact (.list items)
  | .record fields => compact (.record fields)

end Tree

end SheetFill
