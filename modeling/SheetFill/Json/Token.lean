import SheetFill.Json.Numeral

/-!
# Tokens of JSON

A JSON text is a row of tokens with blanks between them: brackets, braces, commas, colons, and scalars. Only the space,
the tab, the line feed and the carriage return are blanks here.

A text in quotes may hold every character but the quote, the backslash and the control characters; those are escaped.
An escape of half a surrogate pair without its other half is refused.
-/

namespace SheetFill.Json

/-- A token of a JSON text. -/
inductive Token where
  | openList
  | closeList
  | openRecord
  | closeRecord
  | comma
  | colon
  | scalar (value : Content)

/-- The blanks between tokens. -/
def isSpace (c : Char) : Bool :=
  c == ' ' || c == '\t' || c == '\n' || c == '\r'

/-- The value of a digit of base sixteen. -/
def hexValue? (c : Char) : Option Nat :=
  if '0' ≤ c ∧ c ≤ '9' then some (c.toNat - 48)
  else if 'a' ≤ c ∧ c ≤ 'f' then some (c.toNat - 87)
  else if 'A' ≤ c ∧ c ≤ 'F' then some (c.toNat - 55)
  else none

/-- The value of four digits of base sixteen. -/
def hex4? (a b c d : Char) : Option Nat := do
  let a ← hexValue? a
  let b ← hexValue? b
  let c ← hexValue? c
  let d ← hexValue? d
  some (((a * 16 + b) * 16 + c) * 16 + d)

/-- The character that a letter behind a backslash stands for. -/
def unescaped? : Char → Option Char
  | '"' => some '"'
  | '\\' => some '\\'
  | '/' => some '/'
  | 'b' => some '\x08'
  | 'f' => some '\x0c'
  | 'n' => some '\n'
  | 'r' => some '\r'
  | 't' => some '\t'
  | _ => none

/-- What stands between quotes as it is written, and what follows the closing quote. -/
def cutQuoted : List Char → Option (List Char × List Char)
  | [] => none
  | '"' :: cs => some ([], cs)
  | '\\' :: c :: cs => (cutQuoted cs).map fun (body, rest) => ('\\' :: c :: body, rest)
  | c :: cs => (cutQuoted cs).map fun (body, rest) => (c :: body, rest)

/-- The text that stands between quotes. -/
def unescape : List Char → Option (List Char)
  | [] => some []
  | '\\' :: 'u' :: a :: b :: c :: d :: rest =>
    match hex4? a b c d with
    | none => none
    | some unit =>
      if 0xDC00 ≤ unit ∧ unit ≤ 0xDFFF then none
      else if 0xD800 ≤ unit ∧ unit ≤ 0xDBFF then
        match rest with
        | '\\' :: 'u' :: a :: b :: c :: d :: rest =>
          match hex4? a b c d with
          | none => none
          | some low =>
            if 0xDC00 ≤ low ∧ low ≤ 0xDFFF then
              (unescape rest).map
                (Char.ofNat (0x10000 + (unit - 0xD800) * 0x400 + (low - 0xDC00)) :: ·)
            else none
        | _ => none
      else (unescape rest).map (Char.ofNat unit :: ·)
  | '\\' :: c :: rest =>
    match unescaped? c with
    | none => none
    | some x => (unescape rest).map (x :: ·)
  | c :: rest => if c.toNat < 32 then none else (unescape rest).map (c :: ·)

/-- A text behind its opening quote, and what follows it. -/
def readText (cs : List Char) : Option (Content × List Char) := do
  let (body, rest) ← cutQuoted cs
  let text ← unescape body
  some (.text (String.ofList text), rest)

/-- A numeral's value, and what follows the numeral. -/
def readNumber (cs : List Char) : Option (Content × List Char) := do
  let (numeral, rest) ← Numeral.read cs
  let value ← numeral.value?
  some (value, rest)

/-- The token that a text without blanks in front starts with, and what follows it. -/
def Token.read : List Char → Option (Token × List Char)
  | '[' :: cs => some (openList, cs)
  | ']' :: cs => some (closeList, cs)
  | '\x7b' :: cs => some (openRecord, cs)
  | '\x7d' :: cs => some (closeRecord, cs)
  | ',' :: cs => some (comma, cs)
  | ':' :: cs => some (colon, cs)
  | '"' :: cs => (readText cs).map fun (c, rest) => (scalar c, rest)
  | 'n' :: 'u' :: 'l' :: 'l' :: cs => some (scalar .null, cs)
  | 't' :: 'r' :: 'u' :: 'e' :: cs => some (scalar (.boolean true), cs)
  | 'f' :: 'a' :: 'l' :: 's' :: 'e' :: cs => some (scalar (.boolean false), cs)
  | cs => (readNumber cs).map fun (c, rest) => (scalar c, rest)

/-- The tokens of a text. Every token takes at least one character, so their number is bounded by the text's length. -/
def tokensWithin : Nat → List Char → Option (List Token)
  | 0, cs => if cs.all isSpace then some [] else none
  | fuel + 1, cs =>
    match cs.dropWhile isSpace with
    | [] => some []
    | cs => do
      let (token, rest) ← Token.read cs
      let tokens ← tokensWithin fuel rest
      some (token :: tokens)

/-- The tokens of a text. -/
def tokens? (cs : List Char) : Option (List Token) :=
  tokensWithin cs.length cs

end SheetFill.Json
