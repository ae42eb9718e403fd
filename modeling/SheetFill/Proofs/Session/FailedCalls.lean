import SheetFill.Proofs.Session.Calls

/-!
# What a failed call leaves behind

A call can fail in three places: in a placeholder, in the search for the template, and in the sheet
of the section. The first two come before any document is touched. The third comes after the
document is there, and if that document was started by the call itself, it stays.

Main statement: a failed call leaves the session as it was, except when the sheet is unknown in a
template that the call has loaded. Then the session has one document more, a bare template, which is
the current one.
-/

namespace SheetFill

namespace Section

/-- The sheet of the section is unknown in its template, which is not the session's current one. -/
def FailsAfterLoading (desc : Section) (source : TemplateSource) (bindings : TextMap) (session : Session)
    (reference : String) (template : Workbook) : Prop :=
  desc.findTemplate source bindings = .ok (reference, template) ∧
    session.currentTemplate ≠ some reference ∧ desc.SheetUnknown template

/-- The sheet of a section is unknown exactly when it is not found. -/
theorem sheetUnknown_iff {desc : Section} {workbook : Workbook} :
    desc.SheetUnknown workbook ↔ ∃ fault, workbook.resolve desc.sheet = .error fault := by
  constructor
  · intro h
    obtain ⟨name, hresolve⟩ := Workbook.resolve_of_sheetUnknown h
    exact ⟨_, hresolve⟩
  · rintro ⟨fault, hresolve⟩
    unfold SheetUnknown
    cases hsheet : desc.sheet with
    | none =>
      rw [hsheet, Workbook.resolve] at hresolve
      split at hresolve
      · next hempty => exact hempty
      · cases hresolve
    | some name =>
      rw [hsheet] at hresolve
      exact Workbook.exists_resolve_eq_error_iff.mp ⟨fault, hresolve⟩

end Section

namespace Session

variable {source : TemplateSource} {bindings : TextMap} {data : Tree} {session : Session}
  {desc : Section} {reference : String} {template : Workbook} {fault : Fault}

/-- A call that fails after loading its template has started a document without reports. -/
theorem fst_render_of_failsAfterLoading
    (h : desc.FailsAfterLoading source bindings session reference template) (data : Tree) :
    (session.render source bindings desc data).1 =
      ⟨some ⟨reference, template, []⟩, session.finish⟩ := by
  obtain ⟨hfound, hcurrent, hunknown⟩ := h
  obtain ⟨hreference, hsource⟩ := Section.findTemplate_eq_ok_iff.mp hfound
  obtain ⟨fault, hresolve⟩ := Section.sheetUnknown_iff.mp hunknown
  have hdocument : session.documentFor source reference =
      .ok (⟨reference, template, []⟩, session.finish) := by
    rw [documentFor_of_ne hcurrent, hsource]
    rfl
  rw [render_of_render_eq_error hreference hdocument (Workbook.render_eq_error_iff.mpr hresolve)]

/-- Any other call that fails leaves the session as it was. -/
theorem fst_render_of_not_failsAfterLoading
    (hfault : (session.render source bindings desc data).2 = .error fault)
    (h : ∀ reference template, ¬ desc.FailsAfterLoading source bindings session reference template) :
    (session.render source bindings desc data).1 = session := by
  cases hreference : Template.resolve desc.template bindings with
  | error fault => simp [render, hreference]
  | ok reference =>
    cases hdocument : session.documentFor source reference with
    | error fault => rw [render_of_documentFor_eq_error hreference hdocument]
    | ok found =>
      obtain ⟨document, finished⟩ := found
      cases hrender : document.workbook.render desc data with
      | ok rendering =>
        rw [render_of_render_eq_ok hreference hdocument hrender] at hfault
        cases hfault
      | error fault =>
        rw [render_of_render_eq_error hreference hdocument hrender]
        rcases documentFor_eq_ok hdocument with
          ⟨hcurrent, -, rfl⟩ | ⟨hcurrent, template, hsource, rfl, -⟩
        · rw [← hcurrent]
        · have hunknown := Section.sheetUnknown_iff.mpr ⟨fault, Workbook.render_eq_error_iff.mp hrender⟩
          have hfound := Section.findTemplate_eq_ok_iff.mpr ⟨hreference, hsource⟩
          exact absurd ⟨hfound, hcurrent, hunknown⟩ (h reference template)

/-- A failed call leaves the session as it was exactly if it does not fail after loading a template.
If it does, the template is a document without reports behind the documents from before, and its
reference is the current one. -/
theorem fst_render_of_error (hfault : (session.render source bindings desc data).2 = .error fault) :
    ((session.render source bindings desc data).1 = session ↔
      ∀ reference template, ¬ desc.FailsAfterLoading source bindings session reference template) ∧
    ∀ reference template, desc.FailsAfterLoading source bindings session reference template →
      (session.render source bindings desc data).1.currentTemplate = some reference ∧
      (session.render source bindings desc data).1.finish =
        session.finish ++ [⟨reference, template, []⟩] := by
  refine ⟨⟨?_, fst_render_of_not_failsAfterLoading hfault⟩, ?_⟩
  · intro hsame reference template hlate
    have hafter := fst_render_of_failsAfterLoading hlate data
    rw [hsame] at hafter
    exact hlate.2.1 (by rw [hafter]; rfl)
  · intro reference template hlate
    rw [fst_render_of_failsAfterLoading hlate]
    exact ⟨rfl, rfl⟩

/-- A placeholder without a variable, after a section that was rendered: nothing changes. -/
theorem fst_render_of_error_missing_variable :
    let source : TemplateSource := fun _ => .ok ⟨[.new "S"]⟩
    let session := (render {} source .empty { template := "a.xlsx" } .null).1
    let desc : Section := { template := "\x7bregion\x7d.xlsx", sheet := some "Absent" }
    let call := session.render source .empty desc .null
    call.2 = .error (.unresolvedPlaceholders "\x7bregion\x7d.xlsx" ["region"]) ∧
      session.currentTemplate = some "a.xlsx" ∧ call.1 = session := by
  intro source session desc call
  have hfault : call.2 = .error (.unresolvedPlaceholders "\x7bregion\x7d.xlsx" ["region"]) := by
    decide +kernel
  have hmissing : Template.resolve desc.template .empty =
      .error (.unresolvedPlaceholders "\x7bregion\x7d.xlsx" ["region"]) := by
    decide +kernel
  refine ⟨hfault, by decide +kernel, (fst_render_of_error hfault).1.mpr ?_⟩
  rintro reference template ⟨hfound, -, -⟩
  obtain ⟨hreference, -⟩ := Section.findTemplate_eq_ok_iff.mp hfound
  rw [hmissing] at hreference
  cases hreference

/-- A section whose sheet is unknown in a template that was not loaded before: the call fails, and
yet the session has another current template and one document more. -/
theorem render_unknown_sheet_starts_document :
    let source : TemplateSource := fun _ => .ok ⟨[.new "S"]⟩
    let session := (render {} source .empty { template := "a.xlsx" } .null).1
    let desc : Section := { template := "b.xlsx", sheet := some "Absent" }
    let call := session.render source .empty desc .null
    Reachable source .empty session ∧ call.2 = .error (.unknownSheet "Absent") ∧
      session.currentTemplate = some "a.xlsx" ∧ call.1.currentTemplate = some "b.xlsx" ∧
      session.finish.length = 1 ∧ call.1.finish.length = 2 := by
  refine ⟨.call _ _ .start, ?_, ?_, ?_, ?_, ?_⟩ <;> decide +kernel

end Session

end SheetFill
