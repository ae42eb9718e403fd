import SheetFill.Content.TextFormat
import SheetFill.Plan.Basic

/-!
# Reading plans

A plan is read from the content of a document. Every part with named fields may be written as a record, in which unknown
names are ignored and a known name may come only once, or as a list of its fields in order, of which the last ones may
be missing. A field that may be absent has a default; null is accepted only where absence is a value of its own. A
matrix is always written as a record.

A document that is no plan may still be a single section. A plan has at least one section, and a section with a blank
name gets one from its position.
-/

namespace SheetFill

open Text (minInt64 maxInt64)

namespace Content

/-- A text. -/
def asText? : Content → Option String
  | text s => some s
  | _ => none

/-- A truth value. -/
def asBoolean? : Content → Option Bool
  | boolean b => some b
  | _ => none

/-- An integer of 64 bits with a sign. -/
def asInteger? : Content → Option Int
  | natural n => if (n : Int) ≤ maxInt64 then some n else none
  | integer i => some i
  | _ => none

/-- An integer that is not negative. -/
def asNatural? : Content → Option Nat
  | natural n => some n
  | integer i => if 0 ≤ i then some i.toNat else none
  | _ => none

/-- Null for absence, or what a reader accepts. -/
def asOption? {α : Type} (read : Content → Option α) : Content → Option (Option α)
  | null => some none
  | c => (read c).map some

/-- A list of what a reader accepts. -/
def asList? {α : Type} (read : Content → Option α) : Content → Option (List α)
  | list items => items.mapM read
  | _ => none

/-- A key and a value that are texts. -/
def asPair? : Content × Content → Option (String × String)
  | (text k, text v) => some (k, v)
  | _ => none

/-- A record of texts; a repeated key keeps its place and takes the last value. -/
def asTextMap? : Content → Option TextMap
  | entries es => (es.mapM asPair?).map TextMap.ofList
  | _ => none

/-- The choice that a name stands for. A choice is written as its name, or as a record with the one entry of its name, or
of its position, and null. -/
def asChoice? {α : Type} (choices : List (List String × α)) : Content → Option α
  | text s => (choices.find? fun c => s ∈ c.1).map Prod.snd
  | entries [(text s, null)] => (choices.find? fun c => s ∈ c.1).map Prod.snd
  | entries [(natural n, null)] => choices[n]?.map Prod.snd
  | _ => none

/-- The position of the field that a key names: by one of its names, or by its number. A number beyond the fields, like
an unknown name, is the position of no field; another key than a text or a number is refused. -/
def fieldIndex? (names : List (List String)) : Content → Option Nat
  | text s => some (names.findIdx fun known => s ∈ known)
  | natural n => some n
  | _ => none

/-- The fields that entries give, in the order of the names; a field that is given twice is refused. -/
def collect (names : List (List String)) :
    List (Content × Content) → List (Option Content) → Option (List (Option Content))
  | [], fields => some fields
  | (key, value) :: rest, fields => do
    let i ← fieldIndex? names key
    match fields[i]? with
    | some none => collect names rest (fields.set i (some value))
    | some (some _) => none
    | none => collect names rest fields

/-- The fields of a part, each one present or not. -/
def fieldsOf? (names : List (List String)) : Content → Option (List (Option Content))
  | entries es => collect names es (List.replicate names.length none)
  | list items =>
    if items.length ≤ names.length then
      some (items.map some ++ List.replicate (names.length - items.length) none)
    else none
  | _ => none

/-- The fields of a part that is always written as a record, and whose fields have no numbers. -/
def namedFields? (names : List (List String)) : Content → Option (List (Option Content))
  | entries es => do
    let known ← es.mapM fun e => (fieldIndex? names e.1).map fun _ => e
    collect names (known.filter fun e => (asText? e.1).isSome) (List.replicate names.length none)
  | _ => none

end Content

/-- A field that has to be there. -/
def required? {α : Type} (read : Content → Option α) (field : Option Content) : Option α :=
  field.bind read

/-- A field with a default. -/
def optional? {α : Type} (fallback : α) (read : Content → Option α) : Option Content → Option α
  | none => some fallback
  | some c => read c

open Content

/-- The dialects by name. -/
def Dialect.choices : List (List String × Dialect) :=
  [(["dotted", "DIRECT", "direct"], .dotted), (["jsonPath", "JSONPATH", "jsonpath"], .jsonPath)]

/-- The positions by name. -/
def IndexPosition.choices : List (List String × IndexPosition) :=
  [(["BEFORE_FIELD", "before"], .beforeField), (["AFTER_FIELD", "after"], .afterField)]

/-- The fields of a repeating group, each with its names. -/
def RepeatingGroup.names : List (List String) :=
  [["startCell", "anchorCell"], ["prefix"], ["suffix"], ["startIndex"], ["indexSeparator"],
    ["indexPosition"], ["maxItems"], ["insertRows"], ["overwrite"], ["fields", "columnMap"]]

/-- The repeating group that a content describes. -/
def RepeatingGroup.ofContent? (c : Content) : Option RepeatingGroup := do
  match ← fieldsOf? names c with
  | [start, before, behind, index, separator, position, most, insert, overwrite, fields] => do
    let start ← optional? none (asOption? asText?) start
    let before ← optional? none (asOption? asText?) before
    let behind ← optional? none (asOption? asText?) behind
    let index ← optional? 1 asInteger? index
    let separator ← optional? none (asOption? asText?) separator
    let position ← optional? .beforeField (asChoice? IndexPosition.choices) position
    let most ← optional? none (asOption? asNatural?) most
    let insert ← optional? false asBoolean? insert
    let overwrite ← optional? true asBoolean? overwrite
    let fields ← optional? .empty asTextMap? fields
    some ⟨start, before, behind, index, separator, position, most, insert, overwrite, fields⟩
  | _ => none

/-- The fields of a group of mappings, each with its names. -/
def FieldGroup.names : List (List String) :=
  [["basePath"], ["dialect", "mappingType"], ["fields", "columnMap"], ["repeatingGroup"]]

/-- The group of mappings that a content describes. -/
def FieldGroup.ofContent? (c : Content) : Option FieldGroup := do
  match ← fieldsOf? names c with
  | [base, dialect, fields, repeating] => do
    let base ← optional? none (asOption? asText?) base
    let dialect ← optional? none (asOption? (asChoice? Dialect.choices)) dialect
    let fields ← optional? .empty asTextMap? fields
    let repeating ← optional? none (asOption? RepeatingGroup.ofContent?) repeating
    some ⟨base, dialect, fields, repeating⟩
  | _ => none

/-- The fields of a section, each with its names. -/
def Section.names : List (List String) :=
  [["sectionId"], ["templateRef", "templatePath"], ["sheet"], ["overwrite"],
    ["dialect", "mappingType"], ["fieldMappings"], ["fieldMappingGroups"]]

/-- The section that a content describes. -/
def Section.ofContent? (c : Content) : Option Section := do
  match ← fieldsOf? names c with
  | [id, template, sheet, overwrite, dialect, mappings, groups] => do
    let id ← optional? "" asText? id
    let template ← required? asText? template
    let sheet ← optional? none (asOption? asText?) sheet
    let overwrite ← optional? false asBoolean? overwrite
    let dialect ← optional? .dotted (asChoice? Dialect.choices) dialect
    let mappings ← optional? .empty asTextMap? mappings
    let groups ← optional? [] (asList? FieldGroup.ofContent?) groups
    some ⟨id, template, sheet, overwrite, dialect, mappings, groups⟩
  | _ => none

/-- The options of a matrix, each with its name. -/
def MatrixOptions.names : List (List String) :=
  [["keyField"], ["valueField"], ["labelField"], ["entriesField"], ["headerLabel"],
    ["columnSpacing"], ["rowSpacing"]]

/-- The options that fields in the order of the names describe. -/
def MatrixOptions.ofFields? : List (Option Content) → Option MatrixOptions
  | [key, value, label, inner, header, columns, rows] => do
    let key ← optional? "name" asText? key
    let value ← optional? "value" asText? value
    let label ← optional? "planName" asText? label
    let inner ← optional? "benefits" asText? inner
    let header ← optional? "Benefit" asText? header
    let columns ← optional? 1 asNatural? columns
    let rows ← optional? 0 asNatural? rows
    some ⟨key, value, label, inner, header, columns, rows⟩
  | _ => none

/-- The options that a content describes. -/
def MatrixOptions.ofContent? (c : Content) : Option MatrixOptions :=
  (fieldsOf? names c).bind ofFields?

/-- The fields of a matrix that stand before its options, each with its name. -/
def MatrixInjection.names : List (List String) :=
  [["source"], ["target"], ["valuesOnly"]]

/-- The matrix that a content describes; its options stand among its fields. -/
def MatrixInjection.ofContent? (c : Content) : Option MatrixInjection := do
  match ← namedFields? (names ++ MatrixOptions.names) c with
  | source :: target :: valuesOnly :: options => do
    let source ← required? asText? source
    let target ← optional? none (asOption? asText?) target
    let valuesOnly ← optional? false asBoolean? valuesOnly
    let options ← MatrixOptions.ofFields? options
    some ⟨source, target, valuesOnly, options⟩
  | _ => none

namespace Plan

/-- The fields of a plan, each with its name. -/
def names : List (List String) :=
  [["namespace"], ["variables"], ["matrices"], ["sections"]]

/-- The plan that a content describes. -/
def ofContent? (c : Content) : Option Plan := do
  match ← fieldsOf? names c with
  | [space, bindings, matrices, sections] => do
    let space ← optional? none (asOption? asText?) space
    let bindings ← optional? .empty asTextMap? bindings
    let matrices ← optional? [] (asList? MatrixInjection.ofContent?) matrices
    let sections ← required? (asList? Section.ofContent?) sections
    some ⟨space, bindings, matrices, sections⟩
  | _ => none

/-- The plan, or the plan of the one section, that a content describes. -/
def orSection? (c : Content) : Option Plan :=
  ofContent? c <|> (Section.ofContent? c).map single

/-- The name of the section at a position when it has none of its own. -/
def sectionName (position : Nat) : String :=
  "section-" ++ Text.natText (position + 1)

/-- Gives every section with a blank name the name of its position. -/
def nameSections (plan : Plan) : Plan :=
  { plan with
    sections := plan.sections.zipIdx.map fun (s, i) =>
      if Text.trim s.id.toList = [] then { s with id := sectionName i } else s }

/-- A plan with named sections, unless it has no section. -/
def checked (plan : Plan) : Except Fault Plan :=
  if plan.sections = [] then .error .emptyPlan else .ok plan.nameSections

/-- The plan that a text describes. -/
def read (format : TextFormat) (source : String) : Except Fault Plan :=
  match (format.content? source).bind orSection? with
  | some plan => plan.checked
  | none => .error format.fault

end Plan

end SheetFill
