import SheetFill.Fault
import SheetFill.Text.Blank

/-!
# Path expressions

A path selects nodes of a data tree by a list of segments. It is written in one of two dialects: dotted, as in
customer.children[0].name, and the one that starts with a dollar sign, as in $['plan name'].items[*]. Both share the
names behind points and the brackets, and differ in how an expression starts.

A reader returns a fault together with what was left to read, so that the position of the fault is the number of
characters before it.
-/

namespace SheetFill

/-- One step of a path. -/
inductive Segment where
  /-- A key of a record; in a list, a position written in digits. -/
  | field (name : String)
  /-- A position in a list; a negative one counts from the end. -/
  | index (position : Int)
  /-- Every child of a list or record. -/
  | wildcard
deriving DecidableEq, Repr

/-- The two ways of writing a path. -/
inductive Dialect where
  | dotted
  | jsonPath
deriving DecidableEq, Repr

namespace Path

open Text (isDigit isBlank)

/-- A fault and what was left to read when it was found. -/
abbrev Stop := PathFault × List Char

/-- The characters that end a name. -/
def endsName (c : Char) : Bool :=
  c == '.' || c == '[' || c == ']'

/-- What a name selects, and what follows it. -/
def readName (cs : List Char) : Except Stop (Segment × List Char) :=
  let rest := cs.dropWhile (!endsName ·)
  match Text.trim (cs.takeWhile (!endsName ·)) with
  | [] => .error (.noFieldName, rest)
  | ['*'] => .ok (.wildcard, rest)
  | name => .ok (.field (String.ofList name), rest)

/-- The key up to the closing quote; a backslash takes the next character as it is. -/
def readQuoted (quote : Char) : List Char → Except Stop (List Char × List Char)
  | [] => .error (.unterminatedKey, [])
  | '\\' :: [] => .error (.unterminatedKey, [])
  | '\\' :: c :: cs => (readQuoted quote cs).map fun (key, rest) => (c :: key, rest)
  | c :: cs =>
    if c = quote then .ok ([], cs)
    else (readQuoted quote cs).map fun (key, rest) => (c :: key, rest)

/-- The characters of which a position is read. -/
def inIndex (c : Char) : Bool :=
  c == '-' || isDigit c

/-- What stands inside brackets, and what follows it. -/
def readBody : List Char → Except Stop (Segment × List Char)
  | '*' :: cs => .ok (.wildcard, cs)
  | '\'' :: cs => (readQuoted '\'' cs).map fun (key, rest) => (.field (String.ofList key), rest)
  | '"' :: cs => (readQuoted '"' cs).map fun (key, rest) => (.field (String.ofList key), rest)
  | cs =>
    let digits := cs.takeWhile inIndex
    let rest := cs.dropWhile inIndex
    if digits = [] then .error (.badBracket, cs)
    else
      match Text.int64? digits with
      | some i => .ok (.index i, rest)
      | none => .error (.invalidIndex (String.ofList digits), rest)

/-- What a bracket selects, and what follows the closing bracket; the opening one is read already. -/
def readBracket (cs : List Char) : Except Stop (Segment × List Char) := do
  let (segment, rest) ← readBody (Text.trimStart cs)
  match Text.trimStart rest with
  | ']' :: rest => .ok (segment, rest)
  | [] => .error (.noClosingBracket, [])
  | _ :: rest => .error (.noClosingBracket, rest)

/-- Names behind points and brackets, to the end. Every step reads at least one character, so the number of characters
bounds the number of steps. -/
def readTail : Nat → List Char → Except Stop (List Segment)
  | _, [] => .ok []
  | 0, c :: cs => .error (.unexpected c, c :: cs)
  | fuel + 1, '.' :: cs =>
    match cs with
    | '.' :: _ => .error (.recursiveDescent, cs)
    | _ => do
      let (segment, rest) ← readName cs
      let segments ← readTail fuel rest
      .ok (segment :: segments)
  | fuel + 1, '[' :: cs => do
    let (segment, rest) ← readBracket cs
    let segments ← readTail fuel rest
    .ok (segment :: segments)
  | _ + 1, c :: cs => .error (.unexpected c, c :: cs)

/-- The dotted dialect: nothing or a point for the root, or a name or bracket and a tail. -/
def readDotted : List Char → Except Stop (List Segment)
  | [] => .ok []
  | '$' :: cs => .error (.dollarInDotted, '$' :: cs)
  | ['.'] => .ok []
  | '.' :: cs => .error (.noFieldName, cs)
  | '[' :: cs => readTail (cs.length + 1) ('[' :: cs)
  | cs => do
    let (segment, rest) ← readName cs
    let segments ← readTail rest.length rest
    .ok (segment :: segments)

/-- The dialect with a dollar sign for the root. -/
def readJsonPath : List Char → Except Stop (List Segment)
  | '$' :: cs => readTail cs.length cs
  | cs => .error (.noDollar, cs)

end Path

/-- The reader of a dialect. -/
def Dialect.read : Dialect → List Char → Except Path.Stop (List Segment)
  | .dotted => Path.readDotted
  | .jsonPath => Path.readJsonPath

/-- The segments of an expression; blanks around it do not count. -/
def Dialect.parse (dialect : Dialect) (expression : String) : Except Fault (List Segment) :=
  let cs := Text.trim expression.toList
  match dialect.read cs with
  | .ok segments => .ok segments
  | .error (cause, rest) =>
    .error (.pathSyntax (String.ofList cs) cause (cs.length - rest.length))

/-- The dialect that an expression is in, by its first character that is not blank. -/
def Dialect.of (expression : String) : Dialect :=
  if (Text.trimStart expression.toList).head? = some '$' then .jsonPath else .dotted

end SheetFill
