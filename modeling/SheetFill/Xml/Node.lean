import SheetFill.Json.Token
import SheetFill.Text.Cut

/-!
# XML

An XML text is read into nodes: elements with attributes and children, and runs of text. Declarations, comments and
sections of raw characters leave nothing. Names keep their own spelling; `localName` is what follows a colon in one.

References to characters are resolved where a text is used. A text that is no XML is refused.
-/

namespace SheetFill.Xml

/-- A piece of an XML text. -/
inductive Piece where
  | opening (name : List Char) (attributes : List (List Char × List Char))
  | closing (name : List Char)
  | text (raw : List Char)

/-- A node of an XML document. -/
inductive Node where
  | text (raw : List Char)
  | element (name : List Char) (attributes : List (List Char × List Char)) (children : List Node)
deriving Inhabited

/-- The blanks between attributes. -/
def isSpace (c : Char) : Bool :=
  c == ' ' || c == '\t' || c == '\n' || c == '\r'

/-- What follows the first occurrence of a mark. -/
def behind? (mark : List Char) : List Char → Option (List Char)
  | [] => if mark = [] then some [] else none
  | c :: cs => if (c :: cs).take mark.length = mark then some ((c :: cs).drop mark.length) else behind? mark cs

/-- Attributes up to the end of a tag: the attributes, whether the element is closed at once, and what follows. -/
def readAttributes :
    Nat → List Char → Option (List (List Char × List Char) × Bool × List Char)
  | 0, _ => none
  | fuel + 1, cs =>
    match cs.dropWhile isSpace with
    | '>' :: rest => some ([], false, rest)
    | '/' :: '>' :: rest => some ([], true, rest)
    | cs =>
      let name := cs.takeWhile fun c => !isSpace c && c != '=' && c != '>' && c != '/'
      match ((cs.drop name.length).dropWhile isSpace) with
      | '=' :: rest =>
        match rest.dropWhile isSpace with
        | quote :: rest =>
          if name ≠ [] ∧ (quote = '"' ∨ quote = '\'') then
            let value := rest.takeWhile (· ≠ quote)
            match rest.drop value.length with
            | _ :: rest =>
              (readAttributes fuel rest).map fun (more, closed, rest) =>
                ((name, value) :: more, closed, rest)
            | [] => none
          else none
        | [] => none
      | _ => none

/-- The pieces of an XML text. Every piece takes at least one character. -/
def pieces : Nat → List Char → Option (List Piece)
  | _, [] => some []
  | 0, _ => none
  | fuel + 1, '<' :: '?' :: cs => (behind? "?>".toList cs).bind (pieces fuel)
  | fuel + 1, '<' :: '!' :: '-' :: '-' :: cs => (behind? "-->".toList cs).bind (pieces fuel)
  | fuel + 1, '<' :: '!' :: '[' :: cs => (behind? "]]>".toList cs).bind (pieces fuel)
  | fuel + 1, '<' :: '!' :: cs => (behind? ['>'] cs).bind (pieces fuel)
  | fuel + 1, '<' :: '/' :: cs =>
    let name := cs.takeWhile (· ≠ '>')
    match cs.drop name.length with
    | _ :: rest => (pieces fuel rest).map (.closing (name.takeWhile (!isSpace ·)) :: ·)
    | [] => none
  | fuel + 1, '<' :: cs =>
    let name := cs.takeWhile fun c => !isSpace c && c != '>' && c != '/'
    if name = [] then none
    else do
      let (attributes, closed, rest) ← readAttributes (cs.length + 1) (cs.drop name.length)
      let more ← pieces fuel rest
      some (.opening name attributes :: (if closed then .closing name :: more else more))
  | fuel + 1, cs =>
    let raw := cs.takeWhile (· ≠ '<')
    (pieces fuel (cs.drop raw.length)).map (.text raw :: ·)

/-- An element that is still open, with the children so far, the last one first. -/
structure Open where
  name : List Char
  attributes : List (List Char × List Char)
  children : List Node

/-- Puts a node into the innermost open element, or behind the nodes outside. -/
def deliver (node : Node) : List Open → List Node → List Open × List Node
  | [], outside => ([], node :: outside)
  | o :: stack, outside => ({ o with children := node :: o.children } :: stack, outside)

/-- The nodes of pieces; every element has to be closed by its own name. -/
def assemble : List Piece → List Open → List Node → Option (List Node)
  | [], [], outside => some outside.reverse
  | [], _ :: _, _ => none
  | .text raw :: rest, stack, outside =>
    let (stack, outside) := deliver (.text raw) stack outside
    assemble rest stack outside
  | .opening name attributes :: rest, stack, outside =>
    assemble rest (⟨name, attributes, []⟩ :: stack) outside
  | .closing name :: rest, o :: stack, outside =>
    if o.name = name then
      let (stack, outside) := deliver (.element name o.attributes o.children.reverse) stack outside
      assemble rest stack outside
    else none
  | .closing _ :: _, [], _ => none

/-- The nodes of an XML text. -/
def parse? (text : String) : Option (List Node) :=
  let cs := text.toList
  let cs := if cs.head? = some '\ufeff' then cs.drop 1 else cs
  (pieces cs.length cs).bind fun ps => assemble ps [] []

/-- The value of the digits of a character reference. -/
def referenceValue? : List Char → Option Char
  | 'x' :: digits =>
    if digits = [] then none
    else (digits.mapM Json.hexValue?).map fun ds => Char.ofNat (ds.foldl (fun n d => n * 16 + d) 0)
  | digits => (Text.nat? digits).map Char.ofNat

/-- The character that a name between an ampersand and a semicolon stands for. -/
def reference? (name : List Char) : Option Char :=
  match name with
  | ['a', 'm', 'p'] => some '&'
  | ['l', 't'] => some '<'
  | ['g', 't'] => some '>'
  | ['q', 'u', 'o', 't'] => some '"'
  | ['a', 'p', 'o', 's'] => some '\''
  | '#' :: digits => referenceValue? digits
  | _ => none

/-- A text with its references resolved. The second argument is the name of the reference that is being read, the last
character first. -/
def resolveFrom : List Char → Option (List Char) → Option (List Char)
  | [], none => some []
  | [], some _ => none
  | '&' :: cs, none => resolveFrom cs (some [])
  | c :: cs, none => (resolveFrom cs none).map (c :: ·)
  | ';' :: cs, some name =>
    (reference? name.reverse).bind fun x => (resolveFrom cs none).map (x :: ·)
  | c :: cs, some name => resolveFrom cs (some (c :: name))

/-- A text with its references resolved. -/
def resolve? (raw : List Char) : Option (List Char) :=
  resolveFrom raw none

/-- What follows the last colon of a name. -/
def localPart (name : List Char) : List Char :=
  match Text.cutLast ':' name with
  | some (_, rest) => rest
  | none => name

namespace Node

/-- The node is an element with a local name. -/
def hasName (node : Node) (name : String) : Bool :=
  match node with
  | element n _ _ => localPart n = name.toList
  | text _ => false

/-- The children of an element. -/
def children : Node → List Node
  | element _ _ children => children
  | text _ => []

/-- The children that are elements. -/
def elements (node : Node) : List Node :=
  node.children.filter fun
    | element _ _ _ => true
    | text _ => false

/-- The value of an attribute as it is written. -/
def attribute? (node : Node) (name : String) : Option (List Char) :=
  match node with
  | element _ attributes _ => attributes.lookup name.toList
  | text _ => none

/-- The text between the tags of an element, its references resolved. -/
def content? (node : Node) : Option (List Char) :=
  (node.children.mapM fun
    | text raw => resolve? raw
    | element _ _ _ => some []).map List.flatten

mutual

/-- A node and all nodes inside it, in the order of the text. -/
def all : Node → List Node
  | text raw => [text raw]
  | element name attributes children => element name attributes children :: allOf children

/-- Nodes and all nodes inside them. -/
def allOf : List Node → List Node
  | [] => []
  | n :: rest => n.all ++ allOf rest

end

end Node

/-- All elements with a local name, in the order of the text. -/
def named (nodes : List Node) (name : String) : List Node :=
  (Node.allOf nodes).filter (·.hasName name)

end SheetFill.Xml
