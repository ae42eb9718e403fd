import SheetFill.Json.Token

/-!
# Reading JSON

The tokens of a JSON text are read one by one. What is still open stands on a stack of frames: a list with the items
read so far, or a record with the entries read so far and the key whose value comes next. A finished value goes into the
frame on top; without a frame it is the document.

At most `maxDepth` lists and records may be open at once.
-/

namespace SheetFill.Json

/-- How many lists and records may be open at once. -/
def maxDepth : Nat := 127

/-- A list or record that is still open; what was read last stands first. -/
inductive Frame where
  | list (items : List Content)
  | record (entries : List (Content × Content)) (key : String)

/-- What may come next. -/
inductive State where
  /-- A value. -/
  | value (stack : List Frame)
  /-- The first item of a list, or its end. -/
  | firstItem (stack : List Frame)
  /-- The first key of a record, or its end. -/
  | firstKey (stack : List Frame)
  /-- A key behind a comma. -/
  | key (entries : List (Content × Content)) (stack : List Frame)
  /-- The colon behind a key. -/
  | colon (entries : List (Content × Content)) (key : String) (stack : List Frame)
  /-- A comma in a list, or its end. -/
  | nextItem (items : List Content) (stack : List Frame)
  /-- A comma in a record, or its end. -/
  | nextEntry (entries : List (Content × Content)) (stack : List Frame)
  /-- Nothing: the document is complete. -/
  | done (document : Content)

namespace State

/-- Puts a finished value into the frame on top. -/
def deliver (content : Content) : List Frame → State
  | [] => done content
  | .list items :: stack => nextItem (content :: items) stack
  | .record entries name :: stack => nextEntry ((.text name, content) :: entries) stack

/-- A token where a value is due. -/
def begin (stack : List Frame) : Token → Option State
  | .scalar content => some (deliver content stack)
  | .openList => if stack.length < maxDepth then some (firstItem stack) else none
  | .openRecord => if stack.length < maxDepth then some (firstKey stack) else none
  | _ => none

/-- One token. -/
def step : State → Token → Option State
  | value stack, token => begin stack token
  | firstItem stack, .closeList => some (deliver (.list []) stack)
  | firstItem stack, token => begin (.list [] :: stack) token
  | firstKey stack, .closeRecord => some (deliver (.entries []) stack)
  | firstKey stack, .scalar (.text name) => some (colon [] name stack)
  | key entries stack, .scalar (.text name) => some (colon entries name stack)
  | colon entries name stack, .colon => some (value (.record entries name :: stack))
  | nextItem items stack, .comma => some (value (.list items :: stack))
  | nextItem items stack, .closeList => some (deliver (.list items.reverse) stack)
  | nextEntry entries stack, .comma => some (key entries stack)
  | nextEntry entries stack, .closeRecord => some (deliver (.entries entries.reverse) stack)
  | _, _ => none

/-- Tokens one after the other. -/
def run (s : State) : List Token → Option State
  | [] => some s
  | token :: rest => (s.step token).bind fun s => s.run rest

/-- The document, if it is complete. -/
def document? : State → Option Content
  | done document => some document
  | _ => none

end State

/-- The content of a JSON text. -/
def content? (text : String) : Option Content := do
  let tokens ← tokens? text.toList
  let state ← State.run (.value []) tokens
  state.document?

/-- The data tree of a JSON text. -/
def tree? (text : String) : Option Tree :=
  (content? text).bind Content.tree?

end SheetFill.Json
