/-!
# Lines of a YAML text

YAML is read by its lines and columns. A position counts characters, lines and columns from zero; a line ends with a line
feed, a carriage return, both together, or one of three further separators.

Between the words of a scalar stands a `Gap`: blanks, or line breaks with blanks around them. A gap without a break is
kept, a single break is folded into a space, and of several breaks all but the first are kept.
-/

namespace SheetFill.Yaml

/-- A space or a tab. -/
def isBlank (c : Char) : Bool :=
  c == ' ' || c == '\t'

/-- A character that ends a line. -/
def isBreak (c : Char) : Bool :=
  c == '\n' || c == '\r' || c == '\u0085' || c == '\u2028' || c == '\u2029'

/-- A blank or a break. -/
def isSpace (c : Char) : Bool :=
  isBlank c || isBreak c

/-- The text begins with a blank or a break, or is at its end. -/
def atSpace : List Char → Bool
  | [] => true
  | c :: _ => isSpace c

/-- The text begins with a break, or is at its end. -/
def atLineEnd : List Char → Bool
  | [] => true
  | c :: _ => isBreak c

/-- The characters that a YAML text may hold. -/
def isPrintable (c : Char) : Bool :=
  let n := c.toNat
  n == 0x09 || n == 0x0A || n == 0x0D || (0x20 ≤ n && n ≤ 0x7E) || n == 0x85 ||
    (0xA0 ≤ n && n ≤ 0xFFFD && n ≠ 0xFEFF) || 0x10000 ≤ n

/-- A break as it is kept in a scalar: two of the separators stay, all others become a line feed. -/
def keptBreak (c : Char) : List Char :=
  if c == '\u2028' || c == '\u2029' then [c] else ['\n']

/-- A position in a text. -/
structure Mark where
  index : Nat := 0
  line : Nat := 0
  column : Nat := 0
deriving DecidableEq, Inhabited

namespace Mark

/-- The position behind `n` characters of the same line. -/
def right (m : Mark) (n : Nat) : Mark :=
  { m with index := m.index + n, column := m.column + n }

/-- The position behind a break of `n` characters. -/
def down (m : Mark) (n : Nat) : Mark :=
  { index := m.index + n, line := m.line + 1, column := 0 }

end Mark

/-- What is left of a text, and where it starts. -/
structure Cursor where
  rest : List Char
  mark : Mark
deriving Inhabited

namespace Cursor

/-- The cursor behind the first `n` characters, which hold no break. -/
def skip (c : Cursor) (n : Nat) : Cursor :=
  ⟨c.rest.drop n, c.mark.right n⟩

/-- The break that the text begins with, as it is kept, and the cursor behind it. -/
def break? (c : Cursor) : Option (List Char × Cursor) :=
  match c.rest with
  | '\r' :: '\n' :: rest => some (['\n'], ⟨rest, c.mark.down 2⟩)
  | x :: rest => if isBreak x then some (keptBreak x, ⟨rest, c.mark.down 1⟩) else none
  | [] => none

/-- The cursor behind the characters of the line that satisfy a predicate. -/
def skipWhile (c : Cursor) (p : Char → Bool) : Cursor :=
  c.skip (c.rest.takeWhile fun x => p x && !isBreak x).length

/-- The cursor at the end of the line. -/
def skipLine (c : Cursor) : Cursor :=
  c.skipWhile fun _ => true

/-- Three characters at the start of a line that mark the start or the end of a document. -/
def atMarker (c : Cursor) (x : Char) : Bool :=
  c.mark.column == 0 && c.rest.take 3 == [x, x, x] && atSpace (c.rest.drop 3)

/-- The start or the end of a document. -/
def atDocumentMarker (c : Cursor) : Bool :=
  c.atMarker '-' || c.atMarker '.'

end Cursor

/-- What stands between two words of a scalar: the blanks before the first break, and the breaks. -/
structure Gap where
  blanks : List Char := []
  breaks : List (List Char) := []

namespace Gap

/-- The characters that a gap becomes. -/
def fold (gap : Gap) : List Char :=
  match gap.breaks with
  | [] => gap.blanks
  | [['\n']] => [' ']
  | ['\n'] :: more => more.flatten
  | first :: more => first ++ more.flatten

/-- The gap spans several lines. -/
def hasBreak (gap : Gap) : Bool :=
  !gap.breaks.isEmpty

end Gap

/-- Reads a gap from a text that starts at `mark`. The blanks and breaks that were read before come last first. Behind a
break no tab may stand left of column `limit`. -/
def readGap (limit : Nat) :
    List Char → Mark → List Char → List (List Char) → Option (Gap × Cursor)
  | '\r' :: '\n' :: rest, mark, _, breaks =>
    readGap limit rest (mark.down 2) [] (['\n'] :: breaks)
  | c :: rest, mark, blanks, breaks =>
    if isBreak c then readGap limit rest (mark.down 1) [] (keptBreak c :: breaks)
    else if isBlank c then
      if breaks.isEmpty then readGap limit rest (mark.right 1) (c :: blanks) breaks
      else if c == '\t' && mark.column < limit then none
      else readGap limit rest (mark.right 1) blanks breaks
    else some (⟨blanks.reverse, breaks.reverse⟩, ⟨c :: rest, mark⟩)
  | [], mark, blanks, breaks => some (⟨blanks.reverse, breaks.reverse⟩, ⟨[], mark⟩)

/-- Reads the gap that a text begins with. -/
def Cursor.gap (c : Cursor) (limit : Nat) : Option (Gap × Cursor) :=
  readGap limit c.rest c.mark [] []

end SheetFill.Yaml
