import SheetFill.Yaml.Token

/-!
# Nodes of YAML

The tokens of a document make a node: a scalar, a list, or a record whose keys are nodes too. An anchor gives the node
behind it a name, and an alias stands for the node that was last given its name; an alias inside its own node is refused.

A text holds at most one document, and no document is an empty one.
-/

namespace SheetFill.Yaml

/-- A node of a YAML document. -/
inductive Node where
  | scalar (tag : Option String) (text : String) (plain : Bool)
  | list (tag : Option String) (items : List Node)
  | record (tag : Option String) (entries : List (Node × Node))
deriving Inhabited

namespace Node

/-- The scalar that stands where nothing is written. -/
def nothing : Node := .scalar none "" true

mutual

/-- How many lists and records stand inside each other. -/
def depth : Node → Nat
  | scalar _ _ _ => 0
  | list _ items => depthItems items + 1
  | record _ entries => depthEntries entries + 1

/-- The greatest depth of items. -/
def depthItems : List Node → Nat
  | [] => 0
  | n :: rest => max n.depth (depthItems rest)

/-- The greatest depth of keys and values. -/
def depthEntries : List (Node × Node) → Nat
  | [] => 0
  | (k, v) :: rest => max (max k.depth v.depth) (depthEntries rest)

end

end Node

/-- What is left to read, and the anchors so far. -/
structure Reading where
  tokens : List Token
  /-- The names of anchors with their numbers, the last one first. -/
  names : List (String × Nat) := []
  /-- The nodes of anchors that are complete. -/
  nodes : List (Nat × Node) := []

/-- Reading of nodes. -/
abbrev Reader := StateT Reading Option

namespace Reader

/-- The next token. -/
def peek : Reader (Option Token) := do
  return (← get).tokens.head?

/-- Takes a token. -/
def skip : Reader Unit :=
  modify fun r => { r with tokens := r.tokens.drop 1 }

/-- The anchor and the tag in front of a node. -/
structure Properties where
  anchor : Option String := none
  tag : Option String := none

/-- Reads an anchor and a tag, in any order; each may be missing. -/
def properties : Reader Properties := do
  match (← get).tokens with
  | .anchor a :: .tag t :: _ =>
    skip
    skip
    return ⟨some a, some t⟩
  | .tag t :: .anchor a :: _ =>
    skip
    skip
    return ⟨some a, some t⟩
  | .anchor a :: _ =>
    skip
    return ⟨some a, none⟩
  | .tag t :: _ =>
    skip
    return ⟨none, some t⟩
  | _ => return {}

/-- Notes that the node of an anchor begins; its number. -/
def beginAnchor (name : Option String) : Reader (Option Nat) := do
  match name with
  | none => return none
  | some name =>
    let n := (← get).names.length
    modify fun r => { r with names := (name, n) :: r.names }
    return some n

/-- Notes the node of an anchor. -/
def endAnchor (number : Option Nat) (node : Node) : Reader Node := do
  match number with
  | none => return node
  | some n =>
    modify fun r => { r with nodes := (n, node) :: r.nodes }
    return node

/-- The node that an alias stands for. -/
def resolve (name : String) : Reader Node := do
  let r ← get
  match (r.names.lookup name).bind fun n => r.nodes.lookup n with
  | some node => return node
  | none => failure

/-- A token with which no node begins after a hyphen. -/
def endsItem : Option Token → Bool
  | some .item | some .key | some .value | some .blockEnd => true
  | _ => false

/-- A token with which no node begins after a hyphen inside a block of its own. -/
def endsBlockItem : Option Token → Bool
  | some .item | some .blockEnd => true
  | _ => false

/-- A token with which no node begins as a key or value of a block. -/
def endsEntry : Option Token → Bool
  | some .key | some .value | some .blockEnd => true
  | _ => false

/-- A token with which no node begins as a value inside brackets. -/
def endsFlowValue (close : Token) : Option Token → Bool
  | some .comma => true
  | some t => t == close
  | none => false

/-- A token with which no node begins as a key inside brackets. -/
def endsFlowKey (close : Token) : Option Token → Bool
  | some .value => true
  | t => endsFlowValue close t

mutual

/-- Reads a node. Inside a block a node may be a block, and as a value of a record a list may stand at the column of the
record. -/
def node (block indentless : Bool) : Nat → Reader Node
  | 0 => failure
  | fuel + 1 => do
    match ← peek with
    | some (.alias name) =>
      skip
      resolve name
    | _ =>
      let p ← properties
      let number ← beginAnchor p.anchor
      let n ← body block indentless p fuel
      endAnchor number n

/-- Reads a node behind its anchor and tag. -/
def body (block indentless : Bool) (p : Properties) : Nat → Reader Node
  | 0 => failure
  | fuel + 1 => do
    match ← peek with
    | some (.scalar text plain) =>
      skip
      return .scalar p.tag text plain
    | some .openList =>
      skip
      return .list p.tag (← flowItems true fuel)
    | some .openRecord =>
      skip
      return .record p.tag (← flowEntries true fuel)
    | some .item =>
      if indentless then return .list p.tag (← indentlessItems fuel)
      else empty p
    | some .blockList =>
      if block then
        skip
        return .list p.tag (← blockItems fuel)
      else empty p
    | some .blockRecord =>
      if block then
        skip
        return .record p.tag (← blockEntries fuel)
      else empty p
    | _ => empty p

/-- An anchor or a tag without anything behind it stands for an empty scalar. -/
def empty (p : Properties) : Reader Node :=
  if p.anchor.isSome || p.tag.isSome then return .scalar p.tag "" true else failure

/-- Reads the items of a block. -/
def blockItems : Nat → Reader (List Node)
  | 0 => failure
  | fuel + 1 => do
    match ← peek with
    | some .item =>
      skip
      let n ← if endsBlockItem (← peek) then pure .nothing else node true false fuel
      return n :: (← blockItems fuel)
    | some .blockEnd =>
      skip
      return []
    | _ => failure

/-- Reads the items of a list at the column of the record around it. -/
def indentlessItems : Nat → Reader (List Node)
  | 0 => failure
  | fuel + 1 => do
    match ← peek with
    | some .item =>
      skip
      let n ← if endsItem (← peek) then pure .nothing else node true false fuel
      return n :: (← indentlessItems fuel)
    | _ => return []

/-- Reads the entries of a block. -/
def blockEntries : Nat → Reader (List (Node × Node))
  | 0 => failure
  | fuel + 1 => do
    match ← peek with
    | some .key =>
      skip
      let k ← if endsEntry (← peek) then pure .nothing else node true true fuel
      let v ← blockValue fuel
      return (k, v) :: (← blockEntries fuel)
    | some .blockEnd =>
      skip
      return []
    | _ => failure

/-- Reads the value of an entry of a block, if there is a colon. -/
def blockValue : Nat → Reader Node
  | 0 => failure
  | fuel + 1 => do
    match ← peek with
    | some .value =>
      skip
      if endsEntry (← peek) then return .nothing else node true true fuel
    | _ => return .nothing

/-- Reads the items of a list in brackets. -/
def flowItems (first : Bool) : Nat → Reader (List Node)
  | 0 => failure
  | fuel + 1 => do
    match ← peek with
    | some .closeList =>
      skip
      return []
    | some .comma =>
      if first then failure
      else
        skip
        match ← peek with
        | some .closeList =>
          skip
          return []
        | _ => return (← flowItem fuel) :: (← flowItems false fuel)
    | _ => if first then return (← flowItem fuel) :: (← flowItems false fuel) else failure

/-- Reads an item in brackets; a key and a value make a record of their own. -/
def flowItem : Nat → Reader Node
  | 0 => failure
  | fuel + 1 => do
    match ← peek with
    | some .key =>
      skip
      let k ← if endsFlowKey .closeList (← peek) then pure .nothing else node false false fuel
      let v ← flowValue .closeList fuel
      return .record none [(k, v)]
    | _ => node false false fuel

/-- Reads the value of an entry in brackets, if there is a colon. -/
def flowValue (close : Token) : Nat → Reader Node
  | 0 => failure
  | fuel + 1 => do
    match ← peek with
    | some .value =>
      skip
      if endsFlowValue close (← peek) then return .nothing else node false false fuel
    | _ => return .nothing

/-- Reads the entries of a record in braces. -/
def flowEntries (first : Bool) : Nat → Reader (List (Node × Node))
  | 0 => failure
  | fuel + 1 => do
    match ← peek with
    | some .closeRecord =>
      skip
      return []
    | some .comma =>
      if first then failure
      else
        skip
        match ← peek with
        | some .closeRecord =>
          skip
          return []
        | _ => return (← flowEntry fuel) :: (← flowEntries false fuel)
    | _ => if first then return (← flowEntry fuel) :: (← flowEntries false fuel) else failure

/-- Reads an entry in braces; a node without a colon behind it is a key without a value. -/
def flowEntry : Nat → Reader (Node × Node)
  | 0 => failure
  | fuel + 1 => do
    match ← peek with
    | some .key =>
      skip
      let k ← if endsFlowKey .closeRecord (← peek) then pure .nothing else node false false fuel
      let v ← flowValue .closeRecord fuel
      return (k, v)
    | _ => return (← node false false fuel, .nothing)

end

/-- Takes the marks at the end of a document. -/
def skipEnds : List Token → List Token
  | .documentEnd :: rest => skipEnds rest
  | tokens => tokens

/-- Reads the only document. -/
def document : Reader Node := do
  match ← peek with
  | none => return .nothing
  | some first =>
    if first == .documentStart then skip
    let fuel := 4 * (← get).tokens.length + 8
    let n ← match ← peek with
      | none | some .documentEnd | some .documentStart =>
        if first == .documentStart then pure .nothing else failure
      | _ => node true false fuel
    if skipEnds (← get).tokens == [] then return n else failure

end Reader

/-- The node of a YAML text. -/
def node? (text : List Char) : Option Node := do
  let tokens ← tokens? text
  (Reader.document.run ⟨tokens, [], []⟩).map Prod.fst

end SheetFill.Yaml
