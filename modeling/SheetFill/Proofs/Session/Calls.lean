import SheetFill.Proofs.Render.FaultIsolation

/-!
# One call of a session

A call renders one section. It goes on with the current document, if that has the section's
reference, and else starts one from a fresh copy of the template. Whether a call succeeds does not
depend on the documents at hand: `Section.reference` looks for the template and the sheet of a
section as if it were the first one.

That is so because the current document of a session that is reached by calls is a template of the
source that still has its sheets, which every call keeps so.
-/

namespace SheetFill

namespace Section

variable (desc : Section) (source : TemplateSource) (bindings : TextMap)

/-- The resolved reference of a section and its template, or the fault of looking for them. -/
def findTemplate : Except Fault (String × Workbook) := do
  let reference ← Template.resolve desc.template bindings
  let template ← source reference
  .ok (reference, template)

/-- The resolved reference of a section that can be rendered, or the first fault. -/
def reference : Except Fault String := do
  let (reference, template) ← desc.findTemplate source bindings
  let _ ← template.resolve desc.sheet
  .ok reference

variable {desc source bindings} {reference : String} {template : Workbook} {fault : Fault}

theorem findTemplate_eq_ok_iff :
    desc.findTemplate source bindings = .ok (reference, template) ↔
      Template.resolve desc.template bindings = .ok reference ∧ source reference = .ok template := by
  simp only [findTemplate, bind_eq_ok_iff, Except.ok.injEq, Prod.mk.injEq]
  constructor
  · rintro ⟨_, hreference, _, htemplate, rfl, rfl⟩
    exact ⟨hreference, htemplate⟩
  · rintro ⟨hreference, htemplate⟩
    exact ⟨reference, hreference, template, htemplate, rfl, rfl⟩

theorem findTemplate_eq_error_iff :
    desc.findTemplate source bindings = .error fault ↔
      Template.resolve desc.template bindings = .error fault ∨
        ∃ reference, Template.resolve desc.template bindings = .ok reference ∧
          source reference = .error fault := by
  simp only [findTemplate, bind_eq_error_iff, reduceCtorEq, and_false, exists_false, or_false]

theorem reference_eq_ok_iff :
    desc.reference source bindings = .ok reference ↔
      ∃ template sheet, desc.findTemplate source bindings = .ok (reference, template) ∧
        template.resolve desc.sheet = .ok sheet := by
  simp only [Section.reference, bind_eq_ok_iff, Except.ok.injEq, Prod.exists]
  constructor
  · rintro ⟨_, template, hfound, sheet, hsheet, rfl⟩
    exact ⟨template, sheet, hfound, hsheet⟩
  · rintro ⟨template, sheet, hfound, hsheet⟩
    exact ⟨reference, template, hfound, sheet, hsheet, rfl⟩

theorem reference_eq_error_iff :
    desc.reference source bindings = .error fault ↔
      desc.findTemplate source bindings = .error fault ∨
        ∃ reference template, desc.findTemplate source bindings = .ok (reference, template) ∧
          template.resolve desc.sheet = .error fault := by
  simp only [Section.reference, bind_eq_error_iff, reduceCtorEq, and_false, exists_false, or_false,
    Prod.exists]

end Section

/-- Rendering fails exactly when the section's sheet is not found. -/
theorem Workbook.render_eq_error_iff {workbook : Workbook} {desc : Section} {data : Tree} {fault : Fault} :
    workbook.render desc data = .error fault ↔ workbook.resolve desc.sheet = .error fault := by
  simp only [render, bind_eq_error_iff, reduceCtorEq, and_false, exists_false, or_false]

/-- The document with one more section rendered into it. -/
def Document.extend (document : Document) (rendering : Rendering) : Document where
  template := document.template
  workbook := rendering.workbook
  reports := document.reports ++ [{ rendering.report with template := document.template }]

namespace Session

variable {source : TemplateSource} {bindings : TextMap} {data : Tree} {session : Session}
  {desc : Section} {reference : String} {document : Document} {finished : List Document}
  {fault : Fault}

theorem currentTemplate_eq_some_iff :
    session.currentTemplate = some reference ↔
      ∃ document, session.current = some document ∧ document.template = reference :=
  Option.map_eq_some_iff

/-- The document for the current reference is the current one. -/
theorem documentFor_of_current (h : session.current = some document) :
    session.documentFor source document.template = .ok (document, session.finished) := by
  simp [documentFor, h]

/-- The document for any other reference is a fresh copy of its template, behind all others. -/
theorem documentFor_of_ne (h : session.currentTemplate ≠ some reference) :
    session.documentFor source reference =
      (source reference).map fun template => (⟨reference, template, []⟩, session.finish) := by
  unfold documentFor finish
  cases hcurrent : session.current with
  | none => simp
  | some document =>
    have hne : document.template ≠ reference := fun heq =>
      h (currentTemplate_eq_some_iff.mpr ⟨document, hcurrent, heq⟩)
    simp [hne]

/-- A call without a document leaves the session as it was. -/
theorem render_of_documentFor_eq_error (hreference : Template.resolve desc.template bindings = .ok reference)
    (hdocument : session.documentFor source reference = .error fault) :
    session.render source bindings desc data = (session, .error fault) := by
  simp [render, hreference, hdocument]

/-- A call whose sheet is not found leaves its document as it was. -/
theorem render_of_render_eq_error (hreference : Template.resolve desc.template bindings = .ok reference)
    (hdocument : session.documentFor source reference = .ok (document, finished))
    (hrender : document.workbook.render desc data = .error fault) :
    session.render source bindings desc data = (⟨some document, finished⟩, .error fault) := by
  simp [render, hreference, hdocument, hrender]

/-- The document for a reference is the current one, or a fresh copy of its template. -/
theorem documentFor_eq_ok (h : session.documentFor source reference = .ok (document, finished)) :
    (session.current = some document ∧ document.template = reference ∧ finished = session.finished) ∨
      session.currentTemplate ≠ some reference ∧ ∃ template, source reference = .ok template ∧
        document = ⟨reference, template, []⟩ ∧ finished = session.finish := by
  by_cases hcurrent : session.currentTemplate = some reference
  · obtain ⟨current, hfound, rfl⟩ := currentTemplate_eq_some_iff.mp hcurrent
    rw [documentFor_of_current hfound] at h
    cases h
    exact .inl ⟨hfound, rfl, rfl⟩
  · rw [documentFor_of_ne hcurrent] at h
    cases hsource : source reference with
    | error fault =>
      rw [hsource] at h
      cases h
    | ok template =>
      rw [hsource] at h
      cases h
      exact .inr ⟨hcurrent, template, rfl, rfl, rfl⟩

/-- The document for a reference has that reference. -/
theorem template_of_documentFor (h : session.documentFor source reference = .ok (document, finished)) :
    document.template = reference := by
  rcases documentFor_eq_ok h with ⟨-, htemplate, -⟩ | ⟨-, template, -, rfl, -⟩
  · exact htemplate
  · rfl

/-- A call that succeeds extends its document. -/
theorem render_of_render_eq_ok {rendering : Rendering}
    (hreference : Template.resolve desc.template bindings = .ok reference)
    (hdocument : session.documentFor source reference = .ok (document, finished))
    (hrender : document.workbook.render desc data = .ok rendering) :
    session.render source bindings desc data =
      (⟨some (document.extend rendering), finished⟩,
        .ok { rendering.report with template := reference }) := by
  obtain rfl := template_of_documentFor hdocument
  simp [render, hreference, hdocument, hrender, Document.extend]

/-- The current document is a template of the source that still has its sheets. -/
def Rooted (source : TemplateSource) (session : Session) : Prop :=
  ∀ document, session.current = some document →
    ∃ template, source document.template = .ok template ∧ document.workbook.names = template.names

/-- The sessions that calls with a source and bindings lead to. -/
inductive Reachable (source : TemplateSource) (bindings : TextMap) : Session → Prop
  | start : Reachable source bindings {}
  | call {session : Session} (desc : Section) (data : Tree) : Reachable source bindings session →
      Reachable source bindings (session.render source bindings desc data).1

theorem rooted_start : Rooted source {} := by
  intro document h
  cases h

namespace Rooted

/-- The document for a reference is a template of the source that still has its sheets. -/
theorem exists_template (hrooted : session.Rooted source)
    (h : session.documentFor source reference = .ok (document, finished)) :
    ∃ template, source reference = .ok template ∧ document.workbook.names = template.names := by
  rcases documentFor_eq_ok h with ⟨hcurrent, rfl, -⟩ | ⟨-, template, hsource, rfl, -⟩
  · exact hrooted document hcurrent
  · exact ⟨template, hsource, rfl⟩

/-- Whether there is a document for a reference depends on the source alone. -/
theorem documentFor_eq_error_iff (hrooted : session.Rooted source) :
    session.documentFor source reference = .error fault ↔ source reference = .error fault := by
  by_cases hcurrent : session.currentTemplate = some reference
  · obtain ⟨current, hfound, rfl⟩ := currentTemplate_eq_some_iff.mp hcurrent
    obtain ⟨template, hsource, -⟩ := hrooted current hfound
    simp [documentFor_of_current hfound, hsource]
  · rw [documentFor_of_ne hcurrent]
    cases source reference <;> simp [Except.map]

/-- A call keeps the current document a template of the source. -/
theorem render (hrooted : session.Rooted source) (bindings : TextMap) (desc : Section) (data : Tree) :
    (session.render source bindings desc data).1.Rooted source := by
  cases hreference : Template.resolve desc.template bindings with
  | error fault => simpa [Session.render, hreference] using hrooted
  | ok reference =>
    cases hdocument : session.documentFor source reference with
    | error fault => simpa [render_of_documentFor_eq_error hreference hdocument] using hrooted
    | ok found =>
      obtain ⟨document, finished⟩ := found
      obtain ⟨template, hsource, hnames⟩ := hrooted.exists_template hdocument
      obtain rfl := template_of_documentFor hdocument
      cases hrender : document.workbook.render desc data with
      | error fault =>
        rw [render_of_render_eq_error hreference hdocument hrender]
        rintro _ ⟨⟩
        exact ⟨template, hsource, hnames⟩
      | ok rendering =>
        rw [render_of_render_eq_ok hreference hdocument hrender]
        rintro _ ⟨⟩
        exact ⟨template, hsource, (Workbook.names_of_render hrender).trans hnames⟩

/-- A call whose template is not found leaves the session as it was. -/
theorem render_of_findTemplate_eq_error (hrooted : session.Rooted source)
    (h : desc.findTemplate source bindings = .error fault) :
    session.render source bindings desc data = (session, .error fault) := by
  rcases Section.findTemplate_eq_error_iff.mp h with hreference | ⟨reference, hreference, hsource⟩
  · simp [Session.render, hreference]
  · exact render_of_documentFor_eq_error hreference (hrooted.documentFor_eq_error_iff.mpr hsource)

/-- A call whose template is found has a document with the sheets of the template. -/
theorem exists_document (hrooted : session.Rooted source) {template : Workbook}
    (h : desc.findTemplate source bindings = .ok (reference, template)) :
    ∃ document finished, session.documentFor source reference = .ok (document, finished) ∧
      document.workbook.resolve desc.sheet = template.resolve desc.sheet := by
  obtain ⟨-, hsource⟩ := Section.findTemplate_eq_ok_iff.mp h
  cases hdocument : session.documentFor source reference with
  | error fault =>
    rw [hrooted.documentFor_eq_error_iff.mp hdocument] at hsource
    cases hsource
  | ok found =>
    obtain ⟨document, finished⟩ := found
    obtain ⟨found, hfound, hnames⟩ := hrooted.exists_template hdocument
    obtain rfl := Except.ok.inj (hsource.symm.trans hfound)
    exact ⟨document, finished, rfl, Workbook.resolve_congr hnames desc.sheet⟩

/-- A call for a section that can be rendered extends its document. -/
theorem render_of_reference_eq_ok (hrooted : session.Rooted source) (data : Tree)
    (h : desc.reference source bindings = .ok reference) :
    ∃ document finished rendering, session.documentFor source reference = .ok (document, finished) ∧
      document.workbook.render desc data = .ok rendering ∧
      session.render source bindings desc data =
        (⟨some (document.extend rendering), finished⟩,
          .ok { rendering.report with template := reference }) := by
  obtain ⟨template, sheet, hfound, hsheet⟩ := Section.reference_eq_ok_iff.mp h
  obtain ⟨document, finished, hdocument, hresolve⟩ := hrooted.exists_document hfound
  obtain ⟨hreference, -⟩ := Section.findTemplate_eq_ok_iff.mp hfound
  obtain ⟨rendering, hrender⟩ : ∃ rendering, document.workbook.render desc data = .ok rendering :=
    ⟨_, Workbook.render_eq_ok_iff.mpr ⟨sheet, hresolve.trans hsheet, rfl⟩⟩
  exact ⟨document, finished, rendering, hdocument, hrender,
    render_of_render_eq_ok hreference hdocument hrender⟩

/-- A call fails with the first fault of its section, and else reports the resolved reference. -/
theorem map_template_snd_render (hrooted : session.Rooted source) (bindings : TextMap) (desc : Section)
    (data : Tree) :
    (session.render source bindings desc data).2.map (·.template) = desc.reference source bindings := by
  cases h : desc.reference source bindings with
  | ok reference =>
    obtain ⟨_, _, _, -, -, hcall⟩ := hrooted.render_of_reference_eq_ok data h
    rw [hcall]
    rfl
  | error fault =>
    rcases Section.reference_eq_error_iff.mp h with hfound | ⟨reference, template, hfound, hsheet⟩
    · rw [hrooted.render_of_findTemplate_eq_error hfound]
      rfl
    · obtain ⟨document, finished, hdocument, hresolve⟩ := hrooted.exists_document hfound
      obtain ⟨hreference, -⟩ := Section.findTemplate_eq_ok_iff.mp hfound
      rw [render_of_render_eq_error hreference hdocument
        (Workbook.render_eq_error_iff.mpr (hresolve.trans hsheet))]
      rfl

end Rooted

theorem Reachable.rooted (h : Reachable source bindings session) : session.Rooted source := by
  induction h with
  | start => exact rooted_start
  | call desc data _ ih => exact ih.render bindings desc data

end Session

end SheetFill
