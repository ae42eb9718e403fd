import SheetFill.Tree.Printer
import SheetFill.Yaml.Lines
import SheetFill.Yaml.Resolution

/-!
# Trees as YAML text

A tree is printed in block form: every item and every field on a line of its own, two columns for each level. A list or
record inside a list starts on the line of its dash, a list inside a record stands right below its key, and an empty one is
written in brackets.

A text is written plain where it reads back as the same text, in single quotes where it would not, as a literal block where
it has several lines, and in double quotes where it holds a character that has to be escaped.
-/

namespace SheetFill.Yaml

/-! ## Styles of texts -/

/-- How a text is written. -/
inductive Style where
  | plain
  | single
  | double
  | literal
deriving DecidableEq

/-- The characters that need no escape. -/
def isShown (c : Char) : Bool :=
  let n := c.toNat
  n == 0x0A || (0x20 ≤ n && n ≤ 0x7E) || (0xA0 ≤ n && n ≤ 0xFFFD && n ≠ 0xFEFF)

/-- Somewhere a character that satisfies `p` stands right before one that satisfies `q`. -/
def hasPair (p q : Char → Bool) : List Char → Bool
  | c :: d :: rest => (p c && q d) || hasPair p q (d :: rest)
  | _ => false

/-- The words that other readers take for truth values. -/
def otherBooleans : List String :=
  ["y", "Y", "yes", "Yes", "YES", "n", "N", "no", "No", "NO", "true", "True", "TRUE", "false", "False",
    "FALSE", "on", "On", "ON", "off", "Off", "OFF"]

/-- The characters that no plain text starts with. -/
def isLeadingIndicator (c : Char) : Bool :=
  c == '#' || c == ',' || c == '[' || c == ']' || c == '\x7b' || c == '\x7d' || c == '&' ||
    c == '*' || c == '!' || c == '|' || c == '>' || c == '\'' || c == '"' || c == '%' ||
    c == '@' || c == Char.ofNat 0x60

/-- A colon with a blank behind it, or a number sign with a blank in front; `afterBlank` says what stands in front of the
first character. -/
def hasInnerIndicator (afterBlank : Bool) : List Char → Bool
  | [] => false
  | c :: rest =>
    (c == ':' && atSpace rest) || (c == '#' && afterBlank) || hasInnerIndicator (isSpace c) rest

/-- A text whose first characters or inner signs mean something else. -/
def hasIndicator (cs : List Char) : Bool :=
  cs.take 3 == ['-', '-', '-'] || cs.take 3 == ['.', '.', '.'] || hasInnerIndicator true cs ||
    match cs with
    | [] => false
    | c :: rest => isLeadingIndicator c || ((c == '?' || c == '-') && atSpace rest)

/-- A text that can stand without quotes. -/
def canBePlain (cs : List Char) : Bool :=
  !cs.any isBreak && cs.head? ≠ some ' ' && cs.getLast? ≠ some ' ' && !hasIndicator cs

/-- A text that would be read as something else without quotes. -/
def isAmbiguous (cs : List Char) : Bool :=
  resolve cs ≠ .text || isZeroPadded cs

/-- How a text is written. -/
def styleOf (cs : List Char) : Style :=
  if !cs.all isShown || hasPair (· == ' ') isBreak cs then .double
  else if otherBooleans.contains (String.ofList cs) then .single
  else if cs.contains '\n' then if cs.getLast? = some ' ' then .double else .literal
  else if hasPair isBreak (· == ' ') cs then .double
  else if isAmbiguous cs || !canBePlain cs then .single
  else .plain

/-! ## Writing texts -/

/-- Blanks in front of a line. -/
def margin (width : Nat) : List Char :=
  List.replicate width ' '

/-- Characters with every line but the first behind a margin, which is written before the line's first character;
`fresh` says that a line has just begun. -/
def indented (width : Nat) (write : Char → List Char) : Bool → List Char → List Char
  | _, [] => []
  | fresh, c :: rest =>
    if isBreak c then c :: indented width write true rest
    else (if fresh then margin width else []) ++ write c ++ indented width write false rest

/-- A character inside single quotes. -/
def singleQuoted (c : Char) : List Char :=
  if c = '\'' then ['\'', '\''] else [c]

/-- A digit of base sixteen, in upper case. -/
def upperHexDigit (n : Nat) : Char :=
  Char.ofNat (if n < 10 then 48 + n else 55 + n)

/-- The last `width` digits of base sixteen. -/
def hexDigits : (width n : Nat) → List Char
  | 0, _ => []
  | width + 1, n => hexDigits width (n / 16) ++ [upperHexDigit (n % 16)]

/-- The characters with an escape of one letter. -/
def shortEscapes : List (Char × Char) :=
  [('\x00', '0'), ('\x07', 'a'), ('\x08', 'b'), ('\t', 't'), ('\n', 'n'), ('\x0b', 'v'), ('\x0c', 'f'),
    ('\r', 'r'), ('\x1b', 'e'), ('"', '"'), ('\\', '\\'), ('\u0085', 'N'), ('\u2028', 'L'),
    ('\u2029', 'P')]

/-- The escape of a character. -/
def escape (c : Char) : List Char :=
  match shortEscapes.lookup c with
  | some letter => ['\\', letter]
  | none =>
    if c.toNat ≤ 0xFF then '\\' :: 'x' :: hexDigits 2 c.toNat
    else if c.toNat ≤ 0xFFFF then '\\' :: 'u' :: hexDigits 4 c.toNat
    else '\\' :: 'U' :: hexDigits 8 c.toNat

/-- A character inside double quotes. -/
def doubleQuoted (c : Char) : List Char :=
  if !isShown c || isBreak c || c = '"' || c = '\\' then escape c else [c]

/-- What the header of a literal block says about its margin and about the breaks at its end. -/
def blockHints (cs : List Char) : List Char :=
  let start := match cs with
    | c :: _ => if c = ' ' || isBreak c then ['2'] else []
    | [] => []
  let finish := match cs.reverse with
    | c :: rest =>
      if !isBreak c then ['-'] else if rest.head?.all isBreak then ['+'] else []
    | [] => ['-']
  start ++ finish

/-- A text; what it has beyond its first line stands behind a margin. -/
def textChars (width : Nat) (cs : List Char) : List Char :=
  match styleOf cs with
  | .plain => cs
  | .single =>
    '\'' :: (indented width singleQuoted false cs ++
      (if cs.getLast?.any isBreak then margin width else []) ++ ['\''])
  | .double => '"' :: (cs.flatMap doubleQuoted ++ ['"'])
  | .literal => '|' :: (blockHints cs ++ '\n' :: indented width (fun c => [c]) true cs)

/-- A text with the break behind it; a literal block may have brought it. -/
def textLine (width : Nat) (cs : List Char) : List Char :=
  textChars width cs ++
    if styleOf cs = .literal ∧ cs.getLast?.any isBreak then [] else ['\n']

/-- The longest key, in bytes, that may stand in front of a colon on its line. -/
def maxKeyLength : Nat := 128

/-- A key that is written in front of its colon. -/
def isSimpleKey (key : String) : Bool :=
  !key.toList.any isBreak && decide (key.utf8ByteSize ≤ maxKeyLength)

/-! ## Writing trees -/

/-- A number. -/
def numberChars : Number → List Char
  | .integer i => Text.ofInt i
  | .double d => (Layout.yaml.text d).toList

/-- What a value stands behind: a dash, or the colon of a key in front of it. The colon behind a key on lines of its own is
like a dash. -/
inductive Lead where
  | dash
  | key
deriving DecidableEq

/-- What the value of a key stands behind. -/
def leadOf (key : String) : Lead :=
  if isSimpleKey key then .key else .dash

/-- A key that stands at a column, and the text of its value. -/
def fieldChars (column : Nat) (key : String) (value : List Char) : List Char :=
  match leadOf key with
  | .key => textChars (column + 2) key.toList ++ ':' :: value
  | .dash => '?' :: ' ' :: (textLine (column + 2) key.toList ++ margin column ++ ':' :: value)

mutual

/-- A value behind a dash or a key at a column. -/
def behind (lead : Lead) (column : Nat) : Tree → List Char
  | .null => " null\n".toList
  | .boolean b => (if b then " true\n" else " false\n").toList
  | .number n => ' ' :: (numberChars n ++ ['\n'])
  | .text s => ' ' :: textLine (column + 2) s.toList
  | .list [] => " []\n".toList
  | .list (t :: rest) =>
    match lead with
    | .dash => ' ' :: '-' :: (behind .dash (column + 2) t ++ itemLines (column + 2) rest)
    | .key => '\n' :: (margin column ++ '-' :: (behind .dash column t ++ itemLines column rest))
  | .record [] => [' ', '\x7b', '\x7d', '\n']
  | .record ((k, t) :: rest) =>
    (if lead = .dash then [' '] else '\n' :: margin (column + 2)) ++
      (fieldChars (column + 2) k (behind (leadOf k) (column + 2) t) ++ fieldLines (column + 2) rest)

/-- Items with their dashes at a column. -/
def itemLines (column : Nat) : List Tree → List Char
  | [] => []
  | t :: rest => margin column ++ '-' :: (behind .dash column t ++ itemLines column rest)

/-- Fields with their keys at a column. -/
def fieldLines (column : Nat) : List (String × Tree) → List Char
  | [] => []
  | (k, t) :: rest =>
    margin column ++ (fieldChars column k (behind (leadOf k) column t) ++ fieldLines column rest)

end

/-- A tree as YAML text. -/
def print (t : Tree) : String :=
  String.ofList (match t with
    | .list (item :: rest) => itemLines 0 (item :: rest)
    | .record (f :: rest) => fieldLines 0 (f :: rest)
    | .text s => textLine 2 s.toList
    | scalar => (behind .dash 0 scalar).drop 1)

end SheetFill.Yaml
