import SheetFill.Text.Digits
import SheetFill.Xml.Node

/-!
# Printing XML

A document is printed without any layout of its own. The signs that mean something in XML, and the control characters, are
written as references, so that a text reads back as it is.
-/

namespace SheetFill.Xml

/-- A character of a text or of the value of an attribute. -/
def escape (c : Char) : List Char :=
  if c = '&' then "&amp;".toList
  else if c = '<' then "&lt;".toList
  else if c = '>' then "&gt;".toList
  else if c = '"' then "&quot;".toList
  else if c.toNat < 32 then '&' :: '#' :: (Text.ofNat c.toNat ++ [';'])
  else [c]

/-- A text as it is written. -/
def escaped (s : String) : List Char :=
  s.toList.flatMap escape

/-- An attribute. -/
def attributeChars (a : List Char × List Char) : List Char :=
  ' ' :: (a.1 ++ '=' :: '"' :: (a.2 ++ ['"']))

namespace Node

/-- An element with texts as the values of its attributes. -/
def of (name : String) (attributes : List (String × String)) (children : List Node) : Node :=
  element name.toList (attributes.map fun a => (a.1.toList, escaped a.2)) children

/-- A run of text. -/
def ofText (s : String) : Node :=
  text (escaped s)

mutual

/-- The characters of a node. -/
def chars : Node → List Char
  | text raw => raw
  | element name attributes children =>
    '<' :: (name ++ attributes.flatMap attributeChars ++
      '>' :: (charsOf children ++ '<' :: '/' :: (name ++ ['>'])))

/-- The characters of nodes. -/
def charsOf : List Node → List Char
  | [] => []
  | n :: rest => n.chars ++ charsOf rest

end

/-- An XML document with a node as its root. -/
def document (root : Node) : String :=
  String.ofList ("<?xml version=\"1.0\" encoding=\"UTF-8\" standalone=\"yes\"?>".toList ++ root.chars)

end Node

end SheetFill.Xml
