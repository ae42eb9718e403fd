import SheetFill.Content.Printer
import SheetFill.Plan.Basic

/-!
# Plans as contents

Every part of a plan is written as a record with all its fields, in the order of the type, absent ones as null. The options
of a matrix stand among the fields of the matrix.
-/

namespace SheetFill

open Content

namespace Content

/-- A record with texts for keys. -/
def ofFields (fields : List (String × Content)) : Content :=
  entries (fields.map fun (k, c) => (text k, c))

/-- Null for absence. -/
def ofOption {α : Type} (write : α → Content) : Option α → Content
  | none => null
  | some a => write a

/-- A record of texts. -/
def ofTextMap (m : TextMap) : Content :=
  ofFields (m.entries.map fun (k, v) => (k, text v))

/-- An integer. -/
def ofInt (i : Int) : Content :=
  if 0 ≤ i then natural i.toNat else integer i

end Content

/-- The name of a dialect. -/
def Dialect.name : Dialect → String
  | dotted => "dotted"
  | jsonPath => "jsonPath"

/-- The name of a position. -/
def IndexPosition.name : IndexPosition → String
  | beforeField => "BEFORE_FIELD"
  | afterField => "AFTER_FIELD"

/-- The content of a repeating group. -/
def RepeatingGroup.content (g : RepeatingGroup) : Content :=
  ofFields
    [("startCell", ofOption text g.startCell), ("prefix", ofOption text g.namePrefix),
      ("suffix", ofOption text g.nameSuffix), ("startIndex", ofInt g.startIndex),
      ("indexSeparator", ofOption text g.indexSeparator),
      ("indexPosition", text g.indexPosition.name), ("maxItems", ofOption natural g.maxItems),
      ("insertRows", boolean g.insertRows), ("overwrite", boolean g.overwrite),
      ("fields", ofTextMap g.fields)]

/-- The content of a group of mappings. -/
def FieldGroup.content (g : FieldGroup) : Content :=
  ofFields
    [("basePath", ofOption text g.basePath),
      ("dialect", ofOption (fun d => text d.name) g.dialect), ("fields", ofTextMap g.fields),
      ("repeatingGroup", ofOption RepeatingGroup.content g.repeating)]

/-- The content of a section. -/
def Section.content (s : Section) : Content :=
  ofFields
    [("sectionId", text s.id), ("templateRef", text s.template), ("sheet", ofOption text s.sheet),
      ("overwrite", boolean s.overwrite), ("dialect", text s.dialect.name),
      ("fieldMappings", ofTextMap s.mappings),
      ("fieldMappingGroups", list (s.groups.map FieldGroup.content))]

/-- The content of a matrix and its options. -/
def MatrixInjection.content (m : MatrixInjection) : Content :=
  ofFields
    [("source", text m.source), ("target", ofOption text m.target),
      ("valuesOnly", boolean m.valuesOnly), ("keyField", text m.options.keyField),
      ("valueField", text m.options.valueField), ("labelField", text m.options.labelField),
      ("entriesField", text m.options.entriesField), ("headerLabel", text m.options.headerLabel),
      ("columnSpacing", natural m.options.columnSpacing),
      ("rowSpacing", natural m.options.rowSpacing)]

/-- The content of a plan. -/
def Plan.content (p : Plan) : Content :=
  ofFields
    [("namespace", ofOption text p.space), ("variables", ofTextMap p.bindings),
      ("matrices", list (p.matrices.map MatrixInjection.content)),
      ("sections", list (p.sections.map Section.content))]

end SheetFill
