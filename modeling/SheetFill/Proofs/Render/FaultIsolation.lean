import SheetFill.Proofs.Render.Edits
import SheetFill.Proofs.Render.Faults
import SheetFill.Render.Session

/-!
# Faults stay by themselves

Rendering a section and rendering what is left of it without its faulty entries go side by side:
after every step workbook, counts and flat fields are the same, and only the warnings differ.

Main statement: without its faulty entries a section leaves the same workbook and the same report,
in which only truncated data is warned of. A section whose own sheet is unknown fails and leaves the
workbook as it was.
-/

namespace SheetFill

namespace Rendering

/-- Two renderings are the same except for their warnings. -/
structure Agree (a b : Rendering) : Prop where
  workbook : a.workbook = b.workbook
  tally : a.report.tally = b.report.tally
  flatFields : a.report.flatFields = b.report.flatFields

variable {a b : Rendering} (overwrite : Bool)

/-- The same step keeps renderings the same. -/
theorem Agree.perform (h : Agree a b) (step : Step) :
    Agree (a.perform overwrite step) (b.perform overwrite step) := by
  obtain ⟨hworkbook, htally, hfields⟩ := h
  cases step with
  | cell sheet c datum =>
    exact ⟨by simp only [Rendering.perform, count, hworkbook],
      by simp only [Rendering.perform, count, hworkbook, htally], hfields⟩
  | range target sheet range value =>
    exact ⟨by simp only [Rendering.perform, count, warnAll, hworkbook],
      by simp only [Rendering.perform, count, warnAll, hworkbook, htally], hfields⟩
  | table group dialect items sheet row =>
    exact ⟨by simp only [Rendering.perform, count, warnAll, hworkbook],
      by simp only [Rendering.perform, count, warnAll, hworkbook, htally], hfields⟩
  | field name text => exact ⟨hworkbook, htally, by simp only [Rendering.perform, hfields]⟩
  | warn warning => exact ⟨hworkbook, htally, hfields⟩

/-- The same steps keep renderings the same. -/
theorem Agree.performAll (h : Agree a b) (steps : List Step) :
    Agree (a.performAll overwrite steps) (b.performAll overwrite steps) := by
  induction steps generalizing a b with
  | nil => exact h
  | cons step rest ih => exact ih (h.perform overwrite step)

/-- What is left of a step without faulty entries keeps renderings the same. -/
theorem Agree.perform_withoutFaults (h : Agree a b) (step : Step) :
    Agree (a.perform overwrite step) (b.performAll overwrite step.withoutFaults) := by
  cases step with
  | table group dialect items sheet row =>
    obtain ⟨hworkbook, htally⟩ := group.expandAt_withoutFaultyColumns dialect items sheet row a.workbook
    have hclean : Agree (a.perform overwrite (.table group dialect items sheet row))
        (a.perform overwrite (.table (group.withoutFaultyColumns dialect) dialect items sheet row)) :=
      ⟨hworkbook.symm, congrArg a.report.tally.add htally.symm, rfl⟩
    have hsame := h.perform overwrite
      (.table (group.withoutFaultyColumns dialect) dialect items sheet row)
    exact ⟨hclean.workbook.trans hsame.workbook, hclean.tally.trans hsame.tally,
      hclean.flatFields.trans hsame.flatFields⟩
  | warn warning => exact ⟨h.workbook, h.tally, h.flatFields⟩
  | cell | range | field => exact h.perform overwrite _

/-- What is left of steps without faulty entries keeps renderings the same. -/
theorem Agree.performAll_withoutFaults (h : Agree a b) (steps : List Step) :
    Agree (a.performAll overwrite steps)
      (b.performAll overwrite (steps.flatMap Step.withoutFaults)) := by
  induction steps generalizing a b with
  | nil => exact h
  | cons step rest ih =>
    have hsplit : b.performAll overwrite ((step :: rest).flatMap Step.withoutFaults) =
        (b.performAll overwrite step.withoutFaults).performAll overwrite
          (rest.flatMap Step.withoutFaults) :=
      List.foldl_append
    rw [hsplit]
    exact ih (h.perform_withoutFaults overwrite step)

/-- Values without room in a range are reported as truncated data. -/
theorem code_of_mem_truncatedWarnings {target : String} {range : CellRange} {truncated : Nat}
    {w : Warning} (h : w ∈ truncatedWarnings target range truncated) : w.code = .dataTruncated := by
  unfold truncatedWarnings at h
  split at h
  · cases h
  · rw [List.mem_singleton.mp h]

end Rendering

/-- What is left of a step without faulty entries warns of truncated data alone. -/
theorem Step.code_of_mem_warnings_withoutFaults {step : Step} {w : Warning}
    (h : w ∈ step.withoutFaults.flatMap Step.warnings) : w.code = .dataTruncated := by
  cases step with
  | range target sheet range value =>
    simp only [withoutFaults, List.flatMap_singleton] at h
    exact Rendering.code_of_mem_truncatedWarnings h
  | table group dialect items sheet row =>
    rw [withoutFaults, List.flatMap_singleton, warnings,
      group.tableWarnings_withoutFaultyColumns dialect] at h
    exact group.code_of_mem_droppedWarnings h
  | cell | field | warn => cases h

/-- No sheet of a workbook is the section's own one. -/
def Section.SheetUnknown (desc : Section) (workbook : Workbook) : Prop :=
  match desc.sheet with
  | some name => name ∉ workbook.names
  | none => workbook.sheets = []

namespace Workbook

variable {workbook : Workbook} {desc : Section}

/-- A sheet that is unknown is not found. -/
theorem resolve_of_sheetUnknown (h : desc.SheetUnknown workbook) :
    ∃ name, workbook.resolve desc.sheet = .error (.unknownSheet name) := by
  unfold Section.SheetUnknown at h
  cases hsheet : desc.sheet with
  | none =>
    rw [hsheet] at h
    exact ⟨_, if_pos h⟩
  | some name =>
    rw [hsheet] at h
    exact ⟨name, resolve_of_not_mem h⟩

/-- Faults are isolated: without its faulty entries a section can be rendered as well, with the same
workbook, counts and flat fields, and then only truncated data is warned of. If the sheet of the
section is unknown, rendering fails, and the document of the session keeps its workbook. -/
theorem render_withoutFaults (workbook : Workbook) (desc : Section) (data : Tree) :
    (∀ rendering, workbook.render desc data = .ok rendering →
      ∃ clean, workbook.render (workbook.withoutFaults desc data) data = .ok clean ∧
        clean.workbook = rendering.workbook ∧ clean.report.tally = rendering.report.tally ∧
        clean.report.flatFields = rendering.report.flatFields ∧
        ∀ w ∈ clean.report.warnings, w.code = .dataTruncated) ∧
    (desc.SheetUnknown workbook →
      ∃ name, workbook.render desc data = .error (.unknownSheet name) ∧
        ∀ (session : Session) (source : TemplateSource) (bindings : TextMap) (reference : String)
          (document : Document) (finished : List Document),
          Template.resolve desc.template bindings = .ok reference →
          session.documentFor source reference = .ok (document, finished) →
          document.workbook = workbook →
          session.render source bindings desc data =
            (⟨some document, finished⟩, .error (.unknownSheet name))) := by
  constructor
  · intro rendering hrender
    obtain ⟨sheet, hresolve, rfl⟩ := render_eq_ok_iff.mp hrender
    have hclean : workbook.withoutFaults desc data =
        Surroundings.withoutFaults ⟨workbook, sheet⟩ desc data := by
      rw [withoutFaults, hresolve]
    rw [hclean]
    refine ⟨_, render_eq_ok_iff.mpr ⟨sheet, hresolve, rfl⟩, ?_⟩
    rw [Surroundings.steps_withoutFaults]
    let start : Rendering := ⟨workbook, { id := desc.id, template := desc.template }⟩
    have hstart : Rendering.Agree start start := ⟨rfl, rfl, rfl⟩
    have hagree := hstart.performAll_withoutFaults desc.overwrite
      (Surroundings.steps ⟨workbook, sheet⟩ desc data)
    refine ⟨hagree.workbook.symm, hagree.tally.symm, hagree.flatFields.symm, fun w hw => ?_⟩
    rw [Rendering.warnings_performAll, List.flatMap_assoc] at hw
    obtain ⟨step, -, hmem⟩ := List.mem_flatMap.mp hw
    exact Step.code_of_mem_warnings_withoutFaults hmem
  · intro hunknown
    obtain ⟨name, hresolve⟩ := resolve_of_sheetUnknown hunknown
    have hrender : workbook.render desc data = .error (.unknownSheet name) := by
      rw [render, hresolve]
      rfl
    refine ⟨name, hrender, ?_⟩
    rintro session source bindings reference document finished hreference hdocument rfl
    simp only [Session.render, hreference, hdocument, hrender]

/-- A section with twelve faults of all kinds, and the same section for a missing sheet. -/
theorem render_withoutFaults_twelve_faults :
    let table : RepeatingGroup :=
      { startCell := some "A3", fields := ⟨[("A", "name"), ("1x", "name"), ("B", "$.age")], by decide⟩ }
    let numbered : RepeatingGroup := { fields := ⟨[("name", "name"), ("age", "age[")], by decide⟩ }
    let desc : Section :=
      { template := "t.xlsx"
        mappings :=
          ⟨[("A1", "title"), ("B1", "a..b"), ("Absent!A1", "title"), ("A0:B1", "title")], by decide⟩
        groups :=
          [{ fields := ⟨[("heading", "title"), ("C1", "title[")], by decide⟩ },
            { repeating := some table },
            { basePath := some "people", repeating := some table },
            { basePath := some "title", repeating := some table },
            { basePath := some "people", repeating := some numbered },
            { basePath := some "people", repeating := some { table with startCell := some "Absent!A3" } }] }
    let data : Tree :=
      .record [("people", .list [.record [("name", .text "Ann")], .null]), ("title", .text "Staff")]
    let workbook : Workbook := ⟨[.new "S"]⟩
    (∃ rendering, workbook.render desc data = .ok rendering ∧ rendering.report.warnings.length = 12 ∧
      ∃ clean, workbook.render (workbook.withoutFaults desc data) data = .ok clean ∧
        clean.workbook = rendering.workbook ∧ clean.report.tally = rendering.report.tally ∧
        clean.report.flatFields = rendering.report.flatFields ∧
        ∀ w ∈ clean.report.warnings, w.code = .dataTruncated) ∧
    ({ desc with sheet := some "Absent" } : Section).SheetUnknown workbook ∧
      ∃ name, workbook.render { desc with sheet := some "Absent" } data = .error (.unknownSheet name) := by
  have hunknown : "Absent" ∉ ["S"] := by decide
  have hfails : ∀ (workbook : Workbook) (desc : Section) (data : Tree), desc.SheetUnknown workbook →
      ∃ name, workbook.render desc data = .error (.unknownSheet name) := by
    intro workbook desc data h
    obtain ⟨name, hrender, -⟩ := (render_withoutFaults workbook desc data).2 h
    exact ⟨name, hrender⟩
  exact ⟨⟨_, rfl, by decide +kernel, (render_withoutFaults _ _ _).1 _ rfl⟩, hunknown,
    hfails _ _ _ hunknown⟩

end Workbook

end SheetFill
