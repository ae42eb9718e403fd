import SheetFill.Yaml.Scalar

/-!
# Tokens of YAML

A YAML text becomes a row of tokens in which the block structure is explicit: a list or record that is written by indentation
has a token where it starts and one where it ends.

A key is only recognized at the colon behind it. Until then the place where it may have started is kept as a pending key,
one for every bracket that is open, and the tokens for the key are put there afterwards. A pending key does not outlast its
line, nor 1024 characters.
-/

namespace SheetFill.Yaml

/-- A token of a YAML text. -/
inductive Token where
  | documentStart
  | documentEnd
  /-- A list by indentation starts. -/
  | blockList
  /-- A record by indentation starts. -/
  | blockRecord
  /-- A list or record by indentation ends. -/
  | blockEnd
  | openList
  | closeList
  | openRecord
  | closeRecord
  /-- A hyphen in front of an item. -/
  | item
  | comma
  | key
  | value
  | alias (name : String)
  | anchor (name : String)
  | tag (name : String)
  | scalar (text : String) (plain : Bool)
deriving DecidableEq

/-- The place of a token that may turn out to be a key. -/
structure PendingKey where
  /-- The number of tokens before it. -/
  number : Nat
  mark : Mark
  /-- The token stands where only a key may stand. -/
  required : Bool

/-- The text, the tokens so far, and the blocks and brackets that are open. -/
structure Scan where
  cursor : Cursor
  /-- The tokens so far, the last one first. -/
  tokens : List Token := []
  /-- One more than the column of the innermost block, or zero outside. -/
  indent : Nat := 0
  /-- The same of the blocks around it. -/
  outer : List Nat := []
  keyAllowed : Bool := true
  /-- The pending key outside brackets or inside the innermost one. -/
  pending : Option PendingKey := none
  /-- The pending keys outside it; there is one for every open bracket. -/
  outerPending : List (Option PendingKey) := []

namespace Scan

/-- The position is inside brackets. -/
def inFlow (s : Scan) : Bool :=
  !s.outerPending.isEmpty

/-- The column of the next character. -/
def column (s : Scan) : Nat :=
  s.cursor.mark.column

/-- Adds a token that takes `n` characters. -/
def emit (s : Scan) (n : Nat) (token : Token) : Scan :=
  { s with tokens := token :: s.tokens, cursor := s.cursor.skip n }

/-- Puts tokens behind the first `number` ones. -/
def insert (s : Scan) (number : Nat) (tokens : List Token) : Scan :=
  let behind := s.tokens.length - number
  { s with tokens := s.tokens.take behind ++ tokens.reverse ++ s.tokens.drop behind }

/-- Gives up the pending key, which is a fault if it had to be a key. -/
def dropKey (s : Scan) : Option Scan :=
  if s.pending.any (·.required) then none else some { s with pending := none }

/-- A pending key does not outlast its line, nor 1024 characters. -/
def isStale (mark : Mark) (key : PendingKey) : Bool :=
  key.mark.line < mark.line || key.mark.index + 1024 < mark.index

/-- A pending key unless it is stale; a stale one that had to be a key is a fault. -/
def freshKey (mark : Mark) : Option PendingKey → Option (Option PendingKey)
  | none => some none
  | some key =>
    if isStale mark key then (if key.required then none else some none) else some (some key)

/-- Gives up the pending keys that are stale. -/
def dropStale (s : Scan) : Option Scan := do
  let pending ← freshKey s.cursor.mark s.pending
  let outerPending ← s.outerPending.mapM (freshKey s.cursor.mark)
  some { s with pending := pending, outerPending := outerPending }

/-- Notes that a key may start here. -/
def saveKey (s : Scan) : Option Scan :=
  if s.keyAllowed then
    s.dropKey.map fun s =>
      let required := !s.inFlow && s.indent == s.column + 1
      { s with pending := some ⟨s.tokens.length, s.cursor.mark, required⟩ }
  else some s

/-- Opens a block at a column that is right of the innermost one; its first token is put behind the first `number`
tokens. -/
def openBlock (s : Scan) (column number : Nat) (token : Token) : Scan :=
  if !s.inFlow && s.indent < column + 1 then
    { s.insert number [token] with indent := column + 1, outer := s.indent :: s.outer }
  else s

/-- Closes the blocks that are right of a column; `limit` is one more than the column. -/
def closeBlocks (limit : Nat) : List Nat → Nat → List Token → Nat × List Nat × List Token
  | [], indent, tokens => (indent, [], tokens)
  | next :: outer, indent, tokens =>
    if limit < indent then closeBlocks limit outer next (.blockEnd :: tokens)
    else (indent, next :: outer, tokens)

/-- Closes the blocks that the next character is left of. -/
def closeTo (s : Scan) (limit : Nat) : Scan :=
  if s.inFlow then s
  else
    let (indent, outer, tokens) := closeBlocks limit s.outer s.indent s.tokens
    { s with indent := indent, outer := outer, tokens := tokens }

/-- Skips blanks, comments and empty lines. A tab is blank only where no key may stand. -/
def skipSpace : Nat → Scan → Scan
  | 0, s => s
  | fuel + 1, s =>
    let tabs := s.inFlow || !s.keyAllowed
    let cursor := s.cursor.skipWhile fun c => c == ' ' || (tabs && c == '\t')
    let cursor := if cursor.rest.head? == some '#' then cursor.skipLine else cursor
    match cursor.break? with
    | some (_, next) =>
      skipSpace fuel { s with cursor := next, keyAllowed := s.keyAllowed || !s.inFlow }
    | none => { s with cursor := cursor }

/-- The start or the end of a document. -/
def readMarker (s : Scan) (token : Token) : Option Scan :=
  (s.closeTo 0).dropKey.map fun s => { s with keyAllowed := false }.emit 3 token

/-- An opening bracket. -/
def readOpen (s : Scan) (token : Token) : Option Scan :=
  s.saveKey.map fun s =>
    { s with pending := none, outerPending := s.pending :: s.outerPending,
             keyAllowed := true }.emit 1 token

/-- A closing bracket. -/
def readClose (s : Scan) (token : Token) : Option Scan :=
  s.dropKey.map fun s =>
    let s := match s.outerPending with
      | pending :: outer => { s with pending := pending, outerPending := outer }
      | [] => s
    { s with keyAllowed := false }.emit 1 token

/-- A comma inside brackets. -/
def readComma (s : Scan) : Option Scan :=
  s.dropKey.map fun s => { s with keyAllowed := true }.emit 1 .comma

/-- A hyphen in front of an item. -/
def readItem (s : Scan) : Option Scan :=
  if !s.inFlow && !s.keyAllowed then none
  else
    (s.openBlock s.column s.tokens.length .blockList).dropKey.map fun s =>
      { s with keyAllowed := true }.emit 1 .item

/-- A question mark in front of a key. -/
def readKey (s : Scan) : Option Scan :=
  if !s.inFlow && !s.keyAllowed then none
  else
    (s.openBlock s.column s.tokens.length .blockRecord).dropKey.map fun s =>
      { s with keyAllowed := !s.inFlow }.emit 1 .key

/-- A colon in front of a value. The pending key, if there is one, was the key. -/
def readValue (s : Scan) : Option Scan :=
  match s.pending with
  | some key =>
    let s := (s.insert key.number [.key]).openBlock key.mark.column key.number .blockRecord
    some ({ s with pending := none, keyAllowed := false }.emit 1 .value)
  | none =>
    if !s.inFlow && !s.keyAllowed then none
    else
      some ({ s.openBlock s.column s.tokens.length .blockRecord with
        keyAllowed := !s.inFlow }.emit 1 .value)

/-- A character of the name of an anchor. -/
def isNameChar (c : Char) : Bool :=
  ('0' ≤ c && c ≤ '9') || ('A' ≤ c && c ≤ 'Z') || ('a' ≤ c && c ≤ 'z') || c == '_' || c == '-'

/-- A character that may follow the name of an anchor. -/
def endsName (cs : List Char) : Bool :=
  atSpace cs || cs.head?.any fun c =>
    c == '?' || c == ':' || c == ',' || c == ']' || c == '\x7d' || c == '%' || c == '@' ||
      c == Char.ofNat 0x60

/-- An anchor or an alias. -/
def readName (s : Scan) (token : String → Token) : Option Scan :=
  let name := (s.cursor.rest.drop 1).takeWhile isNameChar
  if name = [] ∨ !endsName (s.cursor.rest.drop (1 + name.length)) then none
  else
    s.saveKey.map fun s =>
      { s with keyAllowed := false }.emit (1 + name.length) (token (String.ofList name))

/-- A character of a tag. -/
def isTagChar (c : Char) : Bool :=
  isNameChar c || ";/?:@&=+$.!~*'()".toList.contains c

/-- The name of a tag and how many characters it takes: what stands between angles, a name of the common schema behind two
exclamation marks, or a name of the document's own behind one. -/
def tag? (cs : List Char) : Option (List Char × Nat) :=
  match cs with
  | '!' :: '<' :: rest =>
    let name := rest.takeWhile (· ≠ '>')
    if name ≠ [] ∧ rest.drop name.length ≠ [] ∧ name.all (fun c => isTagChar c || c == ',') then
      some (name, name.length + 3)
    else none
  | '!' :: '!' :: rest =>
    let name := rest.takeWhile isTagChar
    if name = [] then none else some ("tag:yaml.org,2002:".toList ++ name, name.length + 2)
  | '!' :: rest =>
    let name := rest.takeWhile isTagChar
    if '!' ∈ name then none else some ('!' :: name, name.length + 1)
  | _ => none

/-- A tag. -/
def readTag (s : Scan) : Option Scan :=
  match tag? s.cursor.rest with
  | none => none
  | some (name, n) =>
    let rest := s.cursor.rest.drop n
    if atSpace rest || (s.inFlow && rest.head? == some ',') then
      s.saveKey.map fun s => { s with keyAllowed := false }.emit n (.tag (String.ofList name))
    else none

/-- Adds a scalar that was read. -/
def addScalar (s : Scan) (plain : Bool) (r : Scanned) : Scan :=
  { s with cursor := r.cursor, keyAllowed := r.keyAllowed,
           tokens := .scalar (String.ofList r.chars) plain :: s.tokens }

/-- A scalar in quotes. -/
def readQuotedScalar (s : Scan) (double : Bool) : Option Scan := do
  let s ← s.saveKey
  let r ← readQuoted double (s.cursor.rest.length + 1) (s.cursor.skip 1) []
  some (s.addScalar false r)

/-- A block scalar. -/
def readBlockScalar (s : Scan) (literal : Bool) : Option Scan := do
  let s ← s.dropKey
  let r ← readBlock literal s.indent (s.cursor.skip 1)
  some (s.addScalar false r)

/-- A plain scalar. -/
def readPlainScalar (s : Scan) : Option Scan := do
  let s ← s.saveKey
  let r ← readPlain s.inFlow s.indent (s.cursor.rest.length + 1) s.cursor [] {}
  some (s.addScalar true r)

/-- The characters with which no plain scalar begins. -/
def isIndicator (c : Char) : Bool :=
  ("-?:,[]{}#&*!|>'\"%@".toList.contains c) || c == Char.ofNat 0x60

/-- Whether a plain scalar begins here. -/
def startsPlain (s : Scan) (c : Char) (rest : List Char) : Bool :=
  !isIndicator c || (c == '-' && !(rest.head?.any isBlank)) ||
    (!s.inFlow && (c == '?' || c == ':') && !atSpace rest)

/-- Reads the token that begins with the next character, which is no blank. -/
def readToken (s : Scan) (c : Char) (rest : List Char) : Option Scan :=
  if s.column = 0 ∧ c = '%' then none
  else if s.cursor.atMarker '-' then s.readMarker .documentStart
  else if s.cursor.atMarker '.' then s.readMarker .documentEnd
  else if c = '[' then s.readOpen .openList
  else if c = '\x7b' then s.readOpen .openRecord
  else if c = ']' then s.readClose .closeList
  else if c = '\x7d' then s.readClose .closeRecord
  else if c = ',' then s.readComma
  else if c = '-' ∧ atSpace rest then s.readItem
  else if c = '?' ∧ (s.inFlow ∨ atSpace rest) then s.readKey
  else if c = ':' ∧ (s.inFlow ∨ atSpace rest) then s.readValue
  else if c = '*' then s.readName .alias
  else if c = '&' then s.readName .anchor
  else if c = '!' then s.readTag
  else if c = '|' ∧ !s.inFlow then s.readBlockScalar true
  else if c = '>' ∧ !s.inFlow then s.readBlockScalar false
  else if c = '\'' then s.readQuotedScalar false
  else if c = '"' then s.readQuotedScalar true
  else if s.startsPlain c rest then s.readPlainScalar
  else none

/-- Reads all tokens. Every token takes at least one character. -/
def readAll : Nat → Scan → Option (List Token)
  | 0, _ => none
  | fuel + 1, s => do
    let s ← (s.skipSpace (s.cursor.rest.length + 1)).dropStale
    let s := s.closeTo (s.column + 1)
    match s.cursor.rest with
    | [] => (s.closeTo 0).dropKey.map (·.tokens.reverse)
    | c :: rest => do
      let s ← s.readToken c rest
      readAll fuel s

end Scan

/-- The tokens of a YAML text; a byte order mark in front does not count. -/
def tokens? (text : List Char) : Option (List Token) :=
  let text := if text.head? = some '\ufeff' then text.drop 1 else text
  if text.all isPrintable then Scan.readAll (text.length + 1) { cursor := ⟨text, {}⟩ } else none

end SheetFill.Yaml
