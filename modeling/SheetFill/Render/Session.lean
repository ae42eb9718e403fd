import SheetFill.Render.Section
import SheetFill.Template.Reference

/-!
# Sessions

The sections of a plan are rendered in one session. As long as consecutive sections name the same template, they are
rendered into the same document; another template starts another document, from a fresh copy of the template.

A section whose template cannot be found leaves the session as it was. A section that fails later has already started its
document.

A session takes its templates from one name space. Which one that is for a plan is chosen by `Plan.render`.
-/

namespace SheetFill

/-- A filled template and the reports of its sections. -/
structure Document where
  /-- The reference of the template, with its placeholders filled. -/
  template : String
  workbook : Workbook
  reports : List Report

/-- The templates of a name space: a template for each reference, or the fault of looking for it. -/
abbrev TemplateSource := String → Except Fault Workbook

/-- Where templates come from: a template for each name space and reference, or the fault of looking for it. -/
abbrev TemplateStore := String → TemplateSource

/-- Templates that are kept by their references alone are the same in every name space. -/
instance : Coe TemplateSource TemplateStore := ⟨fun source _ => source⟩

/-- The documents of a request. -/
structure Session where
  /-- The document that is being filled. -/
  current : Option Document := none
  /-- The documents before it. -/
  finished : List Document := []

namespace Session

/-- The reference of the template that is being filled. -/
def currentTemplate (session : Session) : Option String :=
  session.current.map (·.template)

/-- All documents in the order in which they were started. -/
def finish (session : Session) : List Document :=
  session.finished ++ session.current.toList

/-- The document for a reference, and the documents before it: the current one if it has that reference, else a new
one. -/
def documentFor (session : Session) (source : TemplateSource) (reference : String) :
    Except Fault (Document × List Document) :=
  match session.current with
  | some document =>
    if document.template = reference then .ok (document, session.finished)
    else
      (source reference).map fun workbook =>
        (⟨reference, workbook, []⟩, session.finished ++ [document])
  | none => (source reference).map fun workbook => (⟨reference, workbook, []⟩, session.finished)

/-- Renders a section; what the session is afterwards, and the report or the fault. -/
def render (session : Session) (source : TemplateSource) (bindings : TextMap) (desc : Section)
    (data : Tree) : Session × Except Fault Report :=
  match Template.resolve desc.template bindings with
  | .error fault => (session, .error fault)
  | .ok reference =>
    match session.documentFor source reference with
    | .error fault => (session, .error fault)
    | .ok (document, finished) =>
      match document.workbook.render desc data with
      | .error fault => (⟨some document, finished⟩, .error fault)
      | .ok rendering =>
        let report := { rendering.report with template := reference }
        (⟨some ⟨reference, rendering.workbook, document.reports ++ [report]⟩, finished⟩, .ok report)

/-- Renders sections until one fails. -/
def renderAll (source : TemplateSource) (bindings : TextMap) (data : Tree) :
    List Section → Session → Except Fault Session
  | [], session => .ok session
  | desc :: rest, session =>
    match session.render source bindings desc data with
    | (session, .ok _) => renderAll source bindings data rest session
    | (_, .error fault) => .error fault

end Session

/-- The documents of a plan, whose templates come from its name space or from the default one; a fault leaves none. -/
def Plan.render (plan : Plan) (store : TemplateStore) (data : Tree) :
    Except Fault (List Document) := do
  let prepared ← plan.prepare data
  let session ← Session.renderAll (store plan.templateSpace) plan.bindings prepared plan.sections {}
  .ok session.finish

end SheetFill
