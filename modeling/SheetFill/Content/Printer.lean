import SheetFill.Content.Basic
import SheetFill.Tree.Printer

/-!
# Contents as JSON text

A content is printed in one line without spaces, its entries in the order in which they stand. Texts and numbers are
written as those of a tree are.
-/

namespace SheetFill.Content

mutual

/-- A content in one line. -/
def compactChars : Content → List Char
  | null => "null".toList
  | boolean b => (if b then "true" else "false").toList
  | natural n => Text.ofNat n
  | integer i => Text.ofInt i
  | double d => (Layout.json.text d).toList
  | text s => Json.quote s
  | list items => '[' :: (compactItems items ++ [']'])
  | entries es => '\x7b' :: (compactEntries es ++ ['\x7d'])

/-- Items with commas between them. -/
def compactItems : List Content → List Char
  | [] => []
  | [c] => c.compactChars
  | c :: rest => c.compactChars ++ ',' :: compactItems rest

/-- Entries with commas between them. -/
def compactEntries : List (Content × Content) → List Char
  | [] => []
  | [(k, c)] => k.compactChars ++ ':' :: c.compactChars
  | (k, c) :: rest => k.compactChars ++ ':' :: (c.compactChars ++ ',' :: compactEntries rest)

end

/-- A content as one line of JSON. -/
def compact (c : Content) : String :=
  String.ofList c.compactChars

end SheetFill.Content
