import SheetFill.Json.Token
import SheetFill.Yaml.Lines

/-!
# Scalars of YAML

A scalar is written in one of four ways. A plain scalar ends at a colon with a space behind it, at a comment, at a bracket or
comma inside brackets, or where the text is less indented. A scalar in single or double quotes may span lines as a plain
one does. A block scalar, behind a bar or an angle, takes all lines that are indented enough, and its header says what
becomes of the breaks at its end.
-/

namespace SheetFill.Yaml

/-! ## Plain scalars -/

/-- The characters that end a plain scalar inside brackets. -/
def isFlowIndicator (c : Char) : Bool :=
  c == ',' || c == '[' || c == ']' || c == '\x7b' || c == '\x7d'

/-- The characters of one line of a plain scalar up to the next blank, and what follows; `flow` says whether it stands
inside brackets. -/
def plainRun (flow : Bool) : List Char → Option (List Char × List Char)
  | [] => some ([], [])
  | c :: rest =>
    if isSpace c || (flow && isFlowIndicator c) then some ([], c :: rest)
    else if c == ':' then
      match rest with
      | [] => some ([], c :: rest)
      | d :: _ =>
        if flow && (isFlowIndicator d || d == '?') then none
        else if isSpace d then some ([], c :: rest)
        else (plainRun flow rest).map fun (run, more) => (c :: run, more)
    else (plainRun flow rest).map fun (run, more) => (c :: run, more)

/-- What reading a scalar gives: its characters, the cursor behind it, and whether a key may follow on that line. -/
structure Scanned where
  chars : List Char
  cursor : Cursor
  keyAllowed : Bool

/-- Reads a plain scalar from the gap before its next word on; `indent` is the least column of its lines. -/
def readPlain (flow : Bool) (indent : Nat) : Nat → Cursor → List Char → Gap → Option Scanned
  | 0, _, _, _ => none
  | fuel + 1, cursor, text, gap =>
    if cursor.atDocumentMarker || cursor.rest.head? == some '#' then
      some ⟨text, cursor, gap.hasBreak⟩
    else
      match plainRun flow cursor.rest with
      | none => none
      | some ([], _) => some ⟨text, cursor, gap.hasBreak⟩
      | some (run, rest) =>
        let text := text ++ gap.fold ++ run
        let cursor : Cursor := ⟨rest, cursor.mark.right run.length⟩
        if rest.isEmpty || !atSpace rest then some ⟨text, cursor, false⟩
        else
          match cursor.gap indent with
          | none => none
          | some (gap, cursor) =>
            if !flow && cursor.mark.column < indent then some ⟨text, cursor, gap.hasBreak⟩
            else readPlain flow indent fuel cursor text gap

/-! ## Quoted scalars -/

/-- Where reading the characters between quotes came to a stop. -/
inductive QuoteStop where
  /-- At the closing quote. -/
  | closed
  /-- At a blank or a break. -/
  | space
  /-- At a break with a backslash before it. -/
  | escapedBreak
deriving DecidableEq

/-- The characters between single quotes up to the next blank; the mark counts what is read. -/
def singleRun : List Char → Nat → Option (List Char × QuoteStop × List Char × Nat)
  | [], n => some ([], .space, [], n)
  | '\'' :: '\'' :: rest, n =>
    (singleRun rest (n + 2)).map fun (run, stop, more, m) => ('\'' :: run, stop, more, m)
  | '\'' :: rest, n => some ([], .closed, rest, n + 1)
  | c :: rest, n =>
    if isSpace c then some ([], .space, c :: rest, n)
    else (singleRun rest (n + 1)).map fun (run, stop, more, m) => (c :: run, stop, more, m)

/-- The character that a letter behind a backslash stands for. -/
def escaped? : Char → Option Char
  | '0' => some '\x00'
  | 'a' => some '\x07'
  | 'b' => some '\x08'
  | 't' | '\t' => some '\t'
  | 'n' => some '\n'
  | 'v' => some '\x0b'
  | 'f' => some '\x0c'
  | 'r' => some '\r'
  | 'e' => some '\x1b'
  | ' ' => some ' '
  | '"' => some '"'
  | '/' => some '/'
  | '\\' => some '\\'
  | 'N' => some '\u0085'
  | '_' => some '\u00a0'
  | 'L' => some '\u2028'
  | 'P' => some '\u2029'
  | _ => none

/-- How many digits of base sixteen follow a letter behind a backslash. -/
def escapeDigits? : Char → Option Nat
  | 'x' => some 2
  | 'u' => some 4
  | 'U' => some 8
  | _ => none

/-- The character that digits of base sixteen stand for. -/
def hexChar? (digits : List Char) : Option Char := do
  let values ← digits.mapM Json.hexValue?
  let n := values.foldl (fun n v => n * 16 + v) 0
  if (0xD800 ≤ n ∧ n ≤ 0xDFFF) ∨ 0x10FFFF < n then none else some (Char.ofNat n)

/-- The characters between double quotes up to the next blank. -/
def doubleRun : Nat → List Char → Nat → Option (List Char × QuoteStop × List Char × Nat)
  | 0, _, _ => none
  | _ + 1, [], n => some ([], .space, [], n)
  | _ + 1, '"' :: rest, n => some ([], .closed, rest, n + 1)
  | fuel + 1, '\\' :: c :: rest, n =>
    if isBreak c then some ([], .escapedBreak, c :: rest, n + 1)
    else
      match escapeDigits? c with
      | some k =>
        if (rest.take k).length = k then
          (hexChar? (rest.take k)).bind fun x =>
            (doubleRun fuel (rest.drop k) (n + 2 + k)).map fun (run, stop, more, m) =>
              (x :: run, stop, more, m)
        else none
      | none =>
        (escaped? c).bind fun x =>
          (doubleRun fuel rest (n + 2)).map fun (run, stop, more, m) => (x :: run, stop, more, m)
  | fuel + 1, c :: rest, n =>
    if c = '\\' then none
    else if isSpace c then some ([], .space, c :: rest, n)
    else (doubleRun fuel rest (n + 1)).map fun (run, stop, more, m) => (c :: run, stop, more, m)

/-- The breaks behind a break with a backslash before it; that break itself leaves nothing. -/
def escapedGap (cursor : Cursor) : Option (Gap × Cursor) := do
  let (_, cursor) ← cursor.break?
  readGap 0 cursor.rest cursor.mark [] [[]]

/-- Reads a quoted scalar behind its opening quote. -/
def readQuoted (double : Bool) : Nat → Cursor → List Char → Option Scanned
  | 0, _, _ => none
  | fuel + 1, cursor, text =>
    if cursor.atDocumentMarker || cursor.rest.isEmpty then none
    else do
      let (run, stop, rest, n) ←
        if double then doubleRun (cursor.rest.length + 1) cursor.rest 0 else singleRun cursor.rest 0
      let text := text ++ run
      let cursor : Cursor := ⟨rest, cursor.mark.right n⟩
      match stop with
      | .closed => some ⟨text, cursor, false⟩
      | .space => do
        let (gap, cursor) ← cursor.gap 0
        readQuoted double fuel cursor (text ++ gap.fold)
      | .escapedBreak => do
        let (gap, cursor) ← escapedGap cursor
        readQuoted double fuel cursor (text ++ gap.fold)

/-! ## Block scalars -/

/-- What becomes of the breaks at the end of a block scalar: one is kept, none, or all. -/
inductive Chomping where
  | clip
  | strip
  | keep
deriving DecidableEq

/-- The sign of a header. -/
def chomping? : List Char → Option (Chomping × List Char)
  | '+' :: rest => some (.keep, rest)
  | '-' :: rest => some (.strip, rest)
  | _ => none

/-- The indentation that a header gives, as a digit from 1 to 9. -/
def indentation? : List Char → Option (Nat × List Char)
  | c :: rest => if '1' ≤ c ∧ c ≤ '9' then some (c.toNat - 48, rest) else none
  | [] => none

/-- The header of a block scalar: a sign and a digit in any order, each of which may be missing. -/
def blockHeader (cs : List Char) : Chomping × Option Nat × List Char :=
  match chomping? cs with
  | some (chomping, rest) =>
    match indentation? rest with
    | some (n, rest) => (chomping, some n, rest)
    | none => (chomping, none, rest)
  | none =>
    match indentation? cs with
    | some (n, rest) =>
      match chomping? rest with
      | some (chomping, rest) => (chomping, some n, rest)
      | none => (.clip, some n, rest)
    | none => (.clip, none, cs)

/-- Skips spaces left of a column, or all spaces when there is no column yet. -/
def skipIndent (indent : Option Nat) (cursor : Cursor) : Cursor :=
  let spaces := (cursor.rest.takeWhile (· == ' ')).length
  match indent with
  | none => cursor.skip spaces
  | some n => cursor.skip (min spaces (n - cursor.mark.column))

/-- The breaks of empty lines in front of a line of a block scalar, and the greatest column that was seen. A tab must not
stand where the indentation is. -/
def blockBreaks (indent : Option Nat) :
    Nat → Cursor → List Char → Nat → Option (List Char × Nat × Cursor)
  | 0, _, _, _ => none
  | fuel + 1, cursor, breaks, widest =>
    let cursor := skipIndent indent cursor
    let widest := max widest cursor.mark.column
    let inIndent := match indent with
      | none => true
      | some n => cursor.mark.column < n
    if inIndent && cursor.rest.head? == some '\t' then none
    else
      match cursor.break? with
      | some (b, cursor) => blockBreaks indent fuel cursor (breaks ++ b) widest
      | none => some (breaks, widest, cursor)

/-- The text of a block scalar while it is read. -/
structure BlockText where
  text : List Char := []
  /-- The break at the end of the last line. -/
  lineBreak : List Char := []
  /-- The breaks of empty lines behind it. -/
  breaks : List Char := []
  /-- The last line starts with a blank. -/
  blankFirst : Bool := false

/-- Adds a line; between two lines that start with no blank a folded scalar has a space for a single break. -/
def BlockText.addLine (b : BlockText) (literal : Bool) (line : List Char) : List Char :=
  let blank := line.head?.any isBlank
  let joint :=
    if !literal && b.lineBreak == ['\n'] && !b.blankFirst && !blank then
      if b.breaks.isEmpty then [' '] else b.breaks
    else b.lineBreak ++ b.breaks
  b.text ++ joint ++ line

/-- The text with the breaks at its end that are kept. -/
def BlockText.finish (b : BlockText) : Chomping → List Char
  | .strip => b.text
  | .clip => b.text ++ b.lineBreak
  | .keep => b.text ++ b.lineBreak ++ b.breaks

/-- Reads the lines of a block scalar that start at column `indent`. -/
def blockLines (literal : Bool) (indent : Nat) : Nat → Cursor → BlockText → Option (BlockText × Cursor)
  | 0, _, _ => none
  | fuel + 1, cursor, b =>
    if cursor.mark.column ≠ indent || cursor.rest.isEmpty then some (b, cursor)
    else
      let line := cursor.rest.takeWhile (!isBreak ·)
      let text := b.addLine literal line
      let cursor := cursor.skip line.length
      let (lineBreak, cursor) := (cursor.break?).getD ([], cursor)
      match blockBreaks (some indent) (cursor.rest.length + 1) cursor [] 0 with
      | none => none
      | some (breaks, _, cursor) =>
        blockLines literal indent fuel cursor ⟨text, lineBreak, breaks, line.head?.any isBlank⟩

/-- Reads a block scalar behind its bar or angle; `parent` is one more than the column of the block around it. -/
def readBlock (literal : Bool) (parent : Nat) (cursor : Cursor) : Option Scanned := do
  let (chomping, increment, rest) := blockHeader cursor.rest
  let cursor := (cursor.skip (cursor.rest.length - rest.length)).skipWhile isBlank
  let cursor := if cursor.rest.head? = some '#' then cursor.skipLine else cursor
  if !atLineEnd cursor.rest then none
  else do
    let cursor := match cursor.break? with
      | some (_, next) => next
      | none => cursor
    let given := increment.map fun n => parent - 1 + n
    let (breaks, widest, cursor) ← blockBreaks given (cursor.rest.length + 1) cursor [] 0
    let indent := given.getD (max (max widest parent) 1)
    let (b, cursor) ← blockLines literal indent (cursor.rest.length + 1) cursor { breaks := breaks }
    some ⟨b.finish chomping, cursor, true⟩

end SheetFill.Yaml
