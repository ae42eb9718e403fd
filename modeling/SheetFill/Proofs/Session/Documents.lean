import Mathlib.Data.List.Forall2
import Mathlib.Data.List.SplitBy
import SheetFill.Proofs.Session.Calls

/-!
# The documents of a session

The sections that can be rendered, each with its resolved reference, fall into maximal runs of one
reference. A session makes one document for each run: a fresh copy of the template with the sections
of the run rendered into it, one after the other. Calls whose template is not found come between
sections without parting them.

Main statement: as long as calls fail in finding their template only, the documents of a session are
those of the runs, in order, and the current template is the reference of the last section that was
rendered. A plan gives the documents of its session, or the first fault and no document.
-/

namespace SheetFill

section SplitBy

variable {α : Type} {r : α → α → Bool} {l : List α} {init : List (List α)} {last : List α} {a : α}

/-- An element that goes with the last one joins the last group. -/
theorem splitBy_append_singleton_of_rel (h : l.splitBy r = init ++ [last])
    (ha : ∀ x ∈ l.getLast?, r x a = true) : (l ++ [a]).splitBy r = init ++ [last ++ [a]] := by
  obtain ⟨rfl, hnil, hgroups, hparted⟩ := List.splitBy_eq_iff.mp h
  have hlast : last ≠ [] := fun heq => hnil (by simp [heq])
  obtain ⟨hinit, -, hbetween⟩ := List.isChain_append.mp hparted
  refine List.splitBy_eq_iff.mpr ⟨by simp, ?_, ?_, ?_⟩
  · simpa [hlast] using hnil
  · intro group hmem
    rcases List.mem_append.mp hmem with hmem | hmem
    · exact hgroups group (List.mem_append_left _ hmem)
    · obtain rfl := List.mem_singleton.mp hmem
      refine List.isChain_append.mpr ⟨hgroups last (by simp), .singleton a, ?_⟩
      intro x hx y hy
      obtain rfl : a = y := by simpa using hy
      exact ha x (by simpa [List.getLast?_append, List.getLast?_eq_some_getLast hlast] using hx)
  · refine List.isChain_append.mpr ⟨hinit, .singleton _, ?_⟩
    intro x hx y hy
    obtain rfl : last ++ [a] = y := by simpa using hy
    obtain ⟨hx, hhead, hfalse⟩ := hbetween x hx last (by simp)
    exact ⟨hx, by simp, by rwa [List.head_append_of_ne_nil hlast]⟩

end SplitBy

/-- Related lists of which the second has a last element have related last elements. -/
theorem exists_of_forall₂_append_singleton {α β : Type} {R : α → β → Prop} {l : List α} {init : List β}
    {b : β} (h : List.Forall₂ R l (init ++ [b])) :
    ∃ front a, l = front ++ [a] ∧ List.Forall₂ R front init ∧ R a b := by
  have hlast := List.forall₂_drop_append l init [b] h
  generalize hdrop : l.drop init.length = rest at hlast
  cases hlast with
  | cons hab hnil =>
    cases hnil
    exact ⟨l.take init.length, _, by rw [← hdrop, List.take_append_drop],
      List.forall₂_take_append l init [b] h, hab⟩

/-- The workbook after sections were rendered into it one after the other, and their reports. -/
def Workbook.renderSections (data : Tree) : List Section → Workbook → Except Fault (Workbook × List Report)
  | [], workbook => .ok (workbook, [])
  | desc :: rest, workbook => do
    let rendering ← workbook.render desc data
    let (filled, reports) ← renderSections data rest rendering.workbook
    .ok (filled, rendering.report :: reports)

/-- A section that is rendered last. -/
theorem Workbook.renderSections_append_singleton {data : Tree} {sections : List Section} {desc : Section}
    {workbook filled : Workbook} {reports : List Report} {rendering : Rendering}
    (h : renderSections data sections workbook = .ok (filled, reports))
    (hrender : filled.render desc data = .ok rendering) :
    renderSections data (sections ++ [desc]) workbook =
      .ok (rendering.workbook, reports ++ [rendering.report]) := by
  induction sections generalizing workbook filled reports with
  | nil =>
    cases h
    simp [renderSections, hrender, bind, Except.bind]
  | cons first rest ih =>
    obtain ⟨start, hstart, h⟩ := bind_eq_ok_iff.mp h
    obtain ⟨⟨_, later⟩, hrest, heq⟩ := bind_eq_ok_iff.mp h
    cases heq
    simp [renderSections, hstart, ih hrest hrender, bind, Except.bind]

/-- The document is a fresh copy of its template with the sections of a run rendered into it, and
reports of them under the reference of the template. -/
def Document.Fills (source : TemplateSource) (data : Tree) (run : List (String × Section))
    (document : Document) : Prop :=
  (∀ placed ∈ run, placed.1 = document.template) ∧
    ∃ template reports, source document.template = .ok template ∧
      Workbook.renderSections data (run.map Prod.snd) template = .ok (document.workbook, reports) ∧
      document.reports = reports.map fun report => { report with template := document.template }

/-- The sections that can be rendered, with their resolved references. -/
def placedSections (source : TemplateSource) (bindings : TextMap) (sections : List Section) :
    List (String × Section) :=
  sections.filterMap fun desc => (desc.reference source bindings).toOption.map (·, desc)

/-- The maximal runs of consecutive sections with one resolved reference. -/
def runs (source : TemplateSource) (bindings : TextMap) (sections : List Section) :
    List (List (String × Section)) :=
  (placedSections source bindings sections).splitBy fun a b => a.1 == b.1

section Runs

variable {source : TemplateSource} {bindings : TextMap} {sections : List Section} {desc : Section}
  {reference : String}

/-- A section that cannot be rendered belongs to no run. -/
theorem placedSections_append_singleton_of_error {fault : Fault}
    (h : desc.reference source bindings = .error fault) :
    placedSections source bindings (sections ++ [desc]) = placedSections source bindings sections := by
  simp [placedSections, h, Except.toOption]

/-- A section that can be rendered comes behind those before it. -/
theorem placedSections_append_singleton (h : desc.reference source bindings = .ok reference) :
    placedSections source bindings (sections ++ [desc]) =
      placedSections source bindings sections ++ [(reference, desc)] := by
  simp [placedSections, h, Except.toOption]

end Runs

/-- A document that is extended fills the run with the section. -/
theorem Document.Fills.extend {source : TemplateSource} {data : Tree} {run : List (String × Section)}
    {document : Document} {desc : Section} {rendering : Rendering} (h : document.Fills source data run)
    (hrender : document.workbook.render desc data = .ok rendering) :
    (document.extend rendering).Fills source data (run ++ [(document.template, desc)]) := by
  obtain ⟨hreferences, template, reports, hsource, hfilled, hreports⟩ := h
  refine ⟨?_, template, reports ++ [rendering.report], hsource, ?_, ?_⟩
  · intro placed hmem
    rcases List.mem_append.mp hmem with hmem | hmem
    · exact hreferences placed hmem
    · obtain rfl := List.mem_singleton.mp hmem
      rfl
  · rw [List.map_append]
    exact Workbook.renderSections_append_singleton hfilled hrender
  · simp [Document.extend, hreports]

namespace Session

/-- The session after calls for sections, whether they succeed or not. -/
def renderEach (source : TemplateSource) (bindings : TextMap) (data : Tree) (session : Session)
    (sections : List Section) : Session :=
  sections.foldl (fun session desc => (session.render source bindings desc data).1) session

variable {source : TemplateSource} {bindings : TextMap} {data : Tree} {session : Session}
  {sections : List Section} {desc : Section} {reference : String}

theorem renderEach_append_singleton (sections : List Section) (desc : Section) :
    renderEach source bindings data session (sections ++ [desc]) =
      ((renderEach source bindings data session sections).render source bindings desc data).1 :=
  List.foldl_append

theorem Rooted.renderEach (hrooted : session.Rooted source) (bindings : TextMap) (data : Tree)
    (sections : List Section) : (renderEach source bindings data session sections).Rooted source := by
  induction sections generalizing session with
  | nil => exact hrooted
  | cons desc rest ih => exact ih (hrooted.render bindings desc data)

/-- A session fills the runs of sections: it has one document for each run, in order, and its current
template is the reference of the last section. -/
structure FillsRuns (source : TemplateSource) (bindings : TextMap) (data : Tree) (sections : List Section)
    (session : Session) : Prop where
  documents : List.Forall₂ (fun run document => document.Fills source data run)
    (runs source bindings sections) session.finish
  currentTemplate :
    session.currentTemplate = (placedSections source bindings sections).getLast?.map Prod.fst

/-- A section that is rendered keeps the runs filled. -/
theorem FillsRuns.render (h : FillsRuns source bindings data sections session)
    (hrooted : session.Rooted source) (hreference : desc.reference source bindings = .ok reference) :
    FillsRuns source bindings data (sections ++ [desc]) (session.render source bindings desc data).1 := by
  obtain ⟨document, finished, rendering, hdocument, hrender, hcall⟩ :=
    hrooted.render_of_reference_eq_ok data hreference
  obtain rfl := template_of_documentFor hdocument
  rw [hcall]
  refine ⟨?_, ?_⟩
  · rw [runs, placedSections_append_singleton hreference]
    rcases documentFor_eq_ok hdocument with
      ⟨hcurrent, -, rfl⟩ | ⟨hcurrent, template, hsource, hfresh, rfl⟩
    · -- The document goes on, and the section joins the last run.
      have hfinish : session.finish = session.finished ++ [document] := by rw [finish, hcurrent]; rfl
      have hdocuments := h.documents
      rw [hfinish] at hdocuments
      obtain ⟨front, run, hruns, hfront, hrun⟩ := exists_of_forall₂_append_singleton hdocuments
      have hlast : ∀ placed ∈ (placedSections source bindings sections).getLast?,
          (placed.1 == document.template) = true := by
        intro placed hmem
        have hcurrentTemplate := h.currentTemplate
        rw [hmem, currentTemplate_eq_some_iff.mpr ⟨document, hcurrent, rfl⟩] at hcurrentTemplate
        exact beq_iff_eq.mpr (Option.some.inj hcurrentTemplate).symm
      rw [splitBy_append_singleton_of_rel hruns hlast]
      exact List.rel_append hfront (.cons (hrun.extend hrender) .nil)
    · -- The document is new, and the section starts a run.
      have hfirst : ∀ placed ∈ (placedSections source bindings sections).getLast?,
          (placed.1 == document.template) = false := by
        intro placed hmem
        have hcurrentTemplate := h.currentTemplate
        rw [hmem] at hcurrentTemplate
        refine beq_false_of_ne fun heq => hcurrent ?_
        rw [hcurrentTemplate, Option.map_some, heq]
      have hbare : document.Fills source data [] := by
        rw [hfresh]
        exact ⟨by simp, template, [], hsource, rfl, rfl⟩
      rw [List.splitBy_append_cons [] hfirst]
      exact List.rel_append h.documents (.cons (hbare.extend hrender) .nil)
  · rw [placedSections_append_singleton hreference]
    simp [Session.currentTemplate, Document.extend]

/-- A section whose template is not found keeps the runs filled. -/
theorem FillsRuns.render_of_findTemplate_eq_error (h : FillsRuns source bindings data sections session)
    (hrooted : session.Rooted source) {fault : Fault} (hfound : desc.findTemplate source bindings = .error fault) :
    FillsRuns source bindings data (sections ++ [desc]) (session.render source bindings desc data).1 := by
  have hunplaced : placedSections source bindings (sections ++ [desc]) =
      placedSections source bindings sections :=
    placedSections_append_singleton_of_error (Section.reference_eq_error_iff.mpr (.inl hfound))
  rw [hrooted.render_of_findTemplate_eq_error hfound]
  refine ⟨?_, ?_⟩
  · rw [runs, hunplaced]
    exact h.documents
  · rw [hunplaced]
    exact h.currentTemplate

/-- Every call for one of the sections succeeds, or fails because its template is not found. -/
def CallsFindSheets (source : TemplateSource) (bindings : TextMap) (data : Tree) (sections : List Section) :
    Prop :=
  ∀ before desc, before ++ [desc] <+: sections →
    (∃ report, ((renderEach source bindings data {} before).render source bindings desc data).2 =
      .ok report) ∨
    ∃ fault, desc.findTemplate source bindings = .error fault

/-- Calls that find the sheets of their sections fill the runs, call by call. -/
theorem fillsRuns_renderEach (hcalls : CallsFindSheets source bindings data sections) {before : List Section}
    (hbefore : before <+: sections) :
    FillsRuns source bindings data before (renderEach source bindings data {} before) := by
  induction before using List.reverseRecOn with
  | nil => exact ⟨.nil, rfl⟩
  | append_singleton before desc ih =>
    have hprevious := ih ((List.prefix_append before [desc]).trans hbefore)
    have hrooted : (renderEach source bindings data {} before).Rooted source :=
      rooted_start.renderEach bindings data before
    rw [renderEach_append_singleton]
    rcases hcalls before desc hbefore with ⟨report, hreport⟩ | ⟨fault, hfound⟩
    · have hreference := hrooted.map_template_snd_render bindings desc data
      rw [hreport] at hreference
      exact hprevious.render hrooted hreference.symm
    · exact hprevious.render_of_findTemplate_eq_error hrooted hfound

/-- A section that can be rendered is followed by the sections behind it. -/
theorem renderAll_cons_of_ok (hrooted : session.Rooted source) (data : Tree) (rest : List Section)
    (h : desc.reference source bindings = .ok reference) :
    renderAll source bindings data (desc :: rest) session =
      renderAll source bindings data rest (session.render source bindings desc data).1 := by
  obtain ⟨document, finished, rendering, -, -, hcall⟩ := hrooted.render_of_reference_eq_ok data h
  rw [renderAll, hcall]

/-- Sections that can all be rendered are rendered to the end. -/
theorem renderAll_eq_ok (hrooted : session.Rooted source) (data : Tree)
    (h : ∀ desc ∈ sections, ∃ reference, desc.reference source bindings = .ok reference) :
    renderAll source bindings data sections session =
      .ok (renderEach source bindings data session sections) := by
  induction sections generalizing session with
  | nil => rfl
  | cons desc rest ih =>
    obtain ⟨⟨reference, hreference⟩, hrest⟩ := List.forall_mem_cons.mp h
    rw [renderAll_cons_of_ok hrooted data rest hreference]
    exact ih (hrooted.render bindings desc data) hrest

/-- The first section that cannot be rendered ends the rendering with its fault. -/
theorem renderAll_eq_error (hrooted : session.Rooted source) (data : Tree) {before : List Section}
    (after : List Section) {fault : Fault}
    (hbefore : ∀ earlier ∈ before, ∃ reference, earlier.reference source bindings = .ok reference)
    (h : desc.reference source bindings = .error fault) :
    renderAll source bindings data (before ++ desc :: after) session = .error fault := by
  induction before generalizing session with
  | nil =>
    have hcall := hrooted.map_template_snd_render bindings desc data
    rw [h] at hcall
    rw [List.nil_append, renderAll]
    split
    · next next report heq => simp [heq, Except.map] at hcall
    · next next found heq => simpa [heq, Except.map] using hcall
  | cons earlier rest ih =>
    obtain ⟨⟨reference, hreference⟩, hrest⟩ := List.forall_mem_cons.mp hbefore
    rw [List.cons_append, renderAll_cons_of_ok hrooted data _ hreference]
    exact ih (hrooted.render bindings earlier data) hrest

/-- Sections of which each can be rendered or has no template are called for as such. -/
theorem callsFindSheets_of_forall (data : Tree)
    (h : ∀ desc ∈ sections, (∃ reference, desc.reference source bindings = .ok reference) ∨
      ∃ fault, desc.findTemplate source bindings = .error fault) :
    CallsFindSheets source bindings data sections := by
  intro before desc hprefix
  have hmem : desc ∈ sections := hprefix.subset (by simp)
  rcases h desc hmem with ⟨reference, hreference⟩ | hfault
  · have hrooted : (renderEach source bindings data {} before).Rooted source :=
      rooted_start.renderEach bindings data before
    obtain ⟨_, _, _, -, -, hcall⟩ := hrooted.render_of_reference_eq_ok data hreference
    exact .inl ⟨_, by rw [hcall]⟩
  · exact .inr hfault

end Session

/-- What a plan gives over data that is prepared: the documents of its session, which fill the runs of
its sections, if every section can be rendered, and else the fault of the first one that cannot. -/
structure Plan.FillsRuns (plan : Plan) (source : TemplateSource) (prepared : Tree)
    (result : Except Fault (List Document)) : Prop where
  documents : (∀ desc ∈ plan.sections, ∃ reference, desc.reference source plan.bindings = .ok reference) →
    result = .ok (Session.renderEach source plan.bindings prepared {} plan.sections).finish ∧
      Session.FillsRuns source plan.bindings prepared plan.sections
        (Session.renderEach source plan.bindings prepared {} plan.sections)
  fault : ∀ before desc after fault, plan.sections = before ++ desc :: after →
    (∀ earlier ∈ before, ∃ reference, earlier.reference source plan.bindings = .ok reference) →
    desc.reference source plan.bindings = .error fault → result = .error fault

/-- The documents of a plan are those of the runs of its sections. -/
theorem Plan.fillsRuns_render {plan : Plan} {store : TemplateStore} {data prepared : Tree}
    (hprepare : plan.prepare data = .ok prepared) :
    plan.FillsRuns (store plan.templateSpace) prepared (plan.render store data) := by
  let source := store plan.templateSpace
  have hrender : plan.render store data =
      (Session.renderAll source plan.bindings prepared plan.sections {}).map Session.finish := by
    rw [Plan.render, hprepare]
    change (Session.renderAll source plan.bindings prepared plan.sections {} >>=
      fun session => .ok session.finish) = _
    cases Session.renderAll source plan.bindings prepared plan.sections {} <;> rfl
  rw [hrender]
  refine ⟨fun hall => ⟨?_, ?_⟩, ?_⟩
  · rw [Session.renderAll_eq_ok Session.rooted_start prepared hall]
    rfl
  · have hcalls : Session.CallsFindSheets source plan.bindings prepared plan.sections :=
      Session.callsFindSheets_of_forall prepared fun desc hmem => .inl (hall desc hmem)
    exact Session.fillsRuns_renderEach hcalls (List.prefix_refl plan.sections)
  · intro before desc after fault hsections hbefore hfault
    rw [hsections, Session.renderAll_eq_error Session.rooted_start prepared after hbefore hfault]
    rfl

namespace Session

/-- A session refines the runs of its sections. Each call succeeds or fails as its section does on its
own. If calls fail in finding their template only, the session fills, after each of them, the runs of
the sections so far. A plan whose data can be prepared fills the runs of its sections, or fails with
the first fault. -/
theorem refines_runs (store : TemplateStore) (data : Tree) :
    (∀ space bindings session desc, Reachable (store space) bindings session →
      (session.render (store space) bindings desc data).2.map (·.template) =
        desc.reference (store space) bindings) ∧
    (∀ space bindings sections, CallsFindSheets (store space) bindings data sections →
      ∀ before, before <+: sections →
        FillsRuns (store space) bindings data before (renderEach (store space) bindings data {} before)) ∧
    ∀ plan : Plan,
      (∀ fault, plan.prepare data = .error fault → plan.render store data = .error fault) ∧
      ∀ prepared, plan.prepare data = .ok prepared →
        plan.FillsRuns (store (plan.space.getD Plan.defaultSpace)) prepared (plan.render store data) := by
  refine ⟨?_, ?_, fun plan => ⟨?_, fun prepared => Plan.fillsRuns_render⟩⟩
  · intro space bindings session desc hreachable
    exact hreachable.rooted.map_template_snd_render bindings desc data
  · intro space bindings sections hcalls before hbefore
    exact fillsRuns_renderEach hcalls hbefore
  · intro fault hfault
    rw [Plan.render, hfault]
    rfl

/-- Two sections of one template with a missing variable between them, another template, a template
that is missing, and the first template again. -/
theorem refines_runs_template_used_again :
    let store : TemplateStore := fun _ reference =>
      if reference = "east.xlsx" ∨ reference = "other.xlsx" then .ok ⟨[.new "S"]⟩
      else .error (.templateNotFound reference [])
    let bindings : TextMap := ⟨[("region", "east")], by decide⟩
    let sections : List Section :=
      [{ template := "\x7bregion\x7d.xlsx" }, { template := "\x7bcity\x7d.xlsx" },
        { template := "east.xlsx" }, { template := "other.xlsx" }, { template := "west.xlsx" },
        { template := "east.xlsx" }]
    let after := renderEach (store "tenant") bindings .null {} sections
    CallsFindSheets (store "tenant") bindings .null sections ∧
      FillsRuns (store "tenant") bindings .null sections after ∧
      after.finish.map (fun document => (document.template, document.reports.length)) =
        [("east.xlsx", 2), ("other.xlsx", 1), ("east.xlsx", 1)] := by
  intro store bindings sections after
  have hcalls : CallsFindSheets (store "tenant") bindings .null sections := by
    apply callsFindSheets_of_forall
    simp only [sections, List.forall_mem_cons]
    refine ⟨.inl ⟨"east.xlsx", ?_⟩, .inr ⟨.unresolvedPlaceholders "\x7bcity\x7d.xlsx" ["city"], ?_⟩,
      .inl ⟨"east.xlsx", ?_⟩, .inl ⟨"other.xlsx", ?_⟩,
      .inr ⟨.templateNotFound "west.xlsx" [], ?_⟩, .inl ⟨"east.xlsx", ?_⟩, by simp⟩ <;> decide +kernel
  exact ⟨hcalls, (refines_runs store .null).2.1 "tenant" bindings sections hcalls sections
    (List.prefix_refl sections), by decide +kernel⟩

end Session

end SheetFill
