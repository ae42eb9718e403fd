import SheetFill.Proofs.Cell.Address
import SheetFill.Proofs.Fill.Range
import SheetFill.Proofs.Path.Quoted
import SheetFill.Proofs.Session.Calls
import SheetFill.Proofs.Sheet.Writes
import SheetFill.Proofs.Template.Reference

/-!
# A matrix in its range

A plan builds a matrix of the data, stores it under a key, and fills a range with what it finds under
the key. The key is quoted in the path of the mapping, so that any key will do, and the range is as
large as the matrix, so that nothing is left out.

Main statement: on the first sheet of the template every cell of the matrix stands where the range
has its row and its column, unless the template protects the cell. All other cells are those of the
template.
-/

namespace SheetFill

namespace Matrix

variable {m : Matrix} {range : CellRange}

/-- The range has a row for every row of the matrix and a column for every cell of a row. -/
def Fits (m : Matrix) (range : CellRange) : Prop :=
  m.length ≤ range.rows ∧ ∀ row ∈ m, row.length ≤ range.cols

/-- The coordinate is where a range has the row and the column of a cell of the matrix. -/
def Covers (m : Matrix) (range : CellRange) (c : Coordinate) (datum : Tree) : Prop :=
  ∃ r col row, m[r]? = some row ∧ row[col]? = some datum ∧ c = range.offset r col

/-- The range gives the cells of a matrix that fits to the cells in their places. -/
theorem mem_assign_iff (h : m.Fits range) {c : Coordinate} {datum : Tree} :
    (c, datum) ∈ range.assign m.tree ↔ m.Covers range c datum := by
  obtain ⟨hrows, hcols⟩ := h
  have hassign : range.assign m.tree = range.assignRows (m.map .list) := by
    cases m with
    | nil => exact range.assign_list_nil.trans range.assignRows_nil.symm
    | cons row rest => rfl
  rw [hassign, CellRange.mem_assignRows_iff, Covers]
  constructor
  · rintro ⟨r, col, _, hrow, -, hdatum, -, rfl⟩
    rw [List.getElem?_map, Option.map_eq_some_iff] at hrow
    obtain ⟨row, hrow, rfl⟩ := hrow
    exact ⟨r, col, row, hrow, hdatum, rfl⟩
  · rintro ⟨r, col, row, hrow, hdatum, rfl⟩
    have hr : r < m.length := (List.getElem?_eq_some_iff.mp hrow).1
    have hcol : col < row.length := (List.getElem?_eq_some_iff.mp hdatum).1
    have hlength := hcols row (List.mem_of_getElem? hrow)
    refine ⟨r, col, .list row, ?_, by omega, hdatum, by omega, rfl⟩
    rw [List.getElem?_map, hrow, Option.map_some]

/-- No two cells of a matrix have the same place. -/
theorem Covers.eq {c : Coordinate} {datum other : Tree} (h : m.Covers range c datum)
    (hother : m.Covers range c other) : other = datum := by
  obtain ⟨r, col, row, hrow, hdatum, rfl⟩ := h
  obtain ⟨r', col', row', hrow', hdatum', hplace⟩ := hother
  obtain ⟨rfl, rfl⟩ := CellRange.offset_inj.mp hplace
  obtain rfl := Option.some.inj (hrow.symm.trans hrow')
  exact Option.some.inj (hdatum'.symm.trans hdatum)

/-- The range has room for all cells of a matrix that fits. -/
theorem overflow_tree (h : m.Fits range) : range.overflow m.tree = 0 := by
  obtain ⟨hrows, hcols⟩ := h
  have hoverflow : range.overflowRows (m.map .list) = 0 := by
    refine CellRange.overflowRows_eq_zero (by rwa [List.length_map]) ?_
    intro _ hrow
    obtain ⟨row, hmem, rfl⟩ := List.mem_map.mp hrow
    exact hcols row hmem
  cases m with
  | nil => exact Nat.zero_sub _
  | cons row rest => exact hoverflow

/-- A workbook is a template with a matrix in a range of its first sheet: the cells that the template
protects keep their contents, the others in the place of a cell of the matrix take its datum, and no
other cell changes. -/
structure Placed (m : Matrix) (range : CellRange) (overwrite : Bool) (template filled : Workbook) :
    Prop where
  names : filled.names = template.names
  merges : filled.sheets.map (·.merges) = template.sheets.map (·.merges)
  kept : ∀ c, (template.sheet 0).Protected (overwrite = false) c →
    filled.content 0 c = template.content 0 c
  placed : ∀ c datum, m.Covers range c datum → ¬ (template.sheet 0).Protected (overwrite = false) c →
    filled.content 0 c = datum.cellValue
  others : ∀ i c, (i = 0 → ∀ datum, ¬ m.Covers range c datum) →
    filled.content i c = template.content i c

/-- Writing a matrix to a range that it fits places it there. -/
theorem placed_editAll (h : m.Fits range) (overwrite : Bool) {template : Workbook}
    (hsheets : template.sheets ≠ []) :
    m.Placed range overwrite template
      (template.editAll ((Edit.writes overwrite (range.assign m.tree)).map fun edit => (0, edit))) := by
  have hfirst := List.length_pos_of_ne_nil hsheets
  refine ⟨Workbook.names_editAll template _,
    Workbook.merges_editAll (Workbook.isWrite_of_mem_map_writes 0 overwrite _) template,
    fun _ => Workbook.content_editAll_data_of_protected hfirst, ?_, ?_⟩
  · intro c datum hcovers hprotected
    refine Workbook.content_editAll_data_of_not_protected hfirst ((mem_assign_iff h).mpr hcovers) ?_ hprotected
    exact fun other hother => hcovers.eq ((mem_assign_iff h).mp hother)
  · intro i c hother
    refine Workbook.content_editAll_data_of_not_mem fun hi datum hdatum => ?_
    exact hother hi datum ((mem_assign_iff h).mp hdatum)

end Matrix

namespace MatrixInjection

/-- The matrix of the items that segments select. -/
def matrix (injection : MatrixInjection) (segments : List Segment) (data : Tree) : Matrix :=
  let matrix := Matrix.build injection.options ((walk data segments).items?.getD [])
  if injection.valuesOnly then matrix.valuesOnly else matrix

/-- A source that can be read has a matrix in any data. -/
theorem select_eq_ok {injection : MatrixInjection} {segments : List Segment}
    (h : (Dialect.of injection.source).parse injection.source = .ok segments) (data : Tree) :
    Matrix.select injection.options injection.valuesOnly injection.source data =
      .ok (injection.matrix segments data) := by
  simp only [Matrix.select, Dialect.evaluate, h]
  rfl

/-- A matrix whose source can be read is stored under its key. -/
theorem apply_eq_ok {injection : MatrixInjection} {segments : List Segment}
    (h : (Dialect.of injection.source).parse injection.source = .ok segments) (data : Tree) :
    injection.apply data = .ok ((injection.matrix segments data).inject injection.key data) := by
  rw [apply, select_eq_ok h]
  rfl

end MatrixInjection

/-- The section has one mapping, which sends a path to a range of the first sheet. -/
structure Section.FillsRange (desc : Section) (target path : String) (range : CellRange) : Prop where
  sheet : desc.sheet = none
  groups : desc.groups = []
  mappings : desc.mappings.entries = [(target, path)]
  target : RangeAddress.parse target = .ok ⟨none, range⟩

namespace Section.FillsRange

variable {desc : Section} {data value : Tree} {target path : String} {range : CellRange}

/-- A node that the path selects makes one step. -/
theorem steps_eq (h : desc.FillsRange target path range)
    (hvalue : desc.dialect.evaluate data path = .ok (.one value)) (s : Surroundings) :
    s.steps desc data = [.range target s.defaultSheet range value] := by
  have hplace : s.place target value = .ok (.range target s.defaultSheet range value) := by
    rw [Surroundings.place, if_pos (isRangeReference_of_parse h.target), h.target]
    rfl
  have hmapping : s.mappingSteps desc.dialect data target path =
      [.range target s.defaultSheet range value] := by
    simp only [Surroundings.mappingSteps, hvalue, Surroundings.placeSelection, Selection.isMissing,
      Selection.tree, Selection.tree?, Option.getD_some, hplace, Bool.false_and, Bool.false_eq_true, if_false]
  simp [Surroundings.steps, h.groups, h.mappings, hmapping]

/-- Rendering writes what the range gives to its cells and warns of what it has no room for. -/
theorem exists_render (h : desc.FillsRange target path range)
    (hvalue : desc.dialect.evaluate data path = .ok (.one value)) {template : Workbook}
    (hsheets : template.sheets ≠ []) :
    ∃ rendering, template.render desc data = .ok rendering ∧
      rendering.workbook = template.editAll
        ((Edit.writes desc.overwrite (range.assign value)).map fun edit => (0, edit)) ∧
      rendering.report.warnings = Rendering.truncatedWarnings target range (range.overflow value) := by
  have hresolve : template.resolve desc.sheet = .ok 0 := by
    rw [h.sheet, Workbook.resolve, if_neg hsheets]
  refine ⟨_, Workbook.render_eq_ok_iff.mpr ⟨0, hresolve, rfl⟩, ?_, ?_⟩
  · rw [Rendering.workbook_performAll, h.steps_eq hvalue, List.flatMap_singleton]
    rfl
  · rw [Rendering.warnings_performAll, h.steps_eq hvalue, List.flatMap_singleton]
    rfl

end Section.FillsRange

namespace Plan

/-- The plan stores one matrix and fills one template, in which the only mapping sends the key of the
matrix, in either kind of quotes, to a range. -/
structure PlacesMatrix (plan : Plan) (injection : MatrixInjection) (desc : Section) (range : CellRange) :
    Prop where
  matrices : plan.matrices = [injection]
  sections : plan.sections = [desc]
  template : Template.IsPlain desc.template
  mapping : ∃ target quote, Path.IsQuote quote ∧
    desc.FillsRange target (desc.dialect.keyPath quote injection.key) range

variable {plan : Plan} {store : TemplateStore} {template : Workbook} {desc : Section}

/-- The document of a plan with one section is its template with the section rendered into it. -/
theorem render_of_single {data prepared : Tree} {reference : String} {rendering : Rendering}
    (hprepare : plan.prepare data = .ok prepared) (hsections : plan.sections = [desc])
    (hreference : Template.resolve desc.template plan.bindings = .ok reference)
    (hstore : store plan.templateSpace reference = .ok template)
    (hrender : template.render desc prepared = .ok rendering) :
    plan.render store data =
      .ok [⟨reference, rendering.workbook, [{ rendering.report with template := reference }]⟩] := by
  have hdocument : Session.documentFor {} (store plan.templateSpace) reference =
      .ok (⟨reference, template, []⟩, []) := by
    rw [Session.documentFor, hstore]
    rfl
  have hcall := Session.render_of_render_eq_ok hreference hdocument hrender
  rw [render, hprepare, hsections]
  change (Session.renderAll (store plan.templateSpace) plan.bindings prepared [desc] {} >>= _) = _
  rw [Session.renderAll, hcall]
  rfl

/-- A plan that places a matrix gives one document, without warnings. Every cell of the matrix has its
place in the range on the first sheet, unless the template protects the place; all other cells are
those of the template. An empty matrix leaves the template as it is. -/
theorem render_placesMatrix {injection : MatrixInjection} {range : CellRange} {segments : List Segment}
    {fields : List (String × Tree)} (hplan : plan.PlacesMatrix injection desc range)
    (hparse : (Dialect.of injection.source).parse injection.source = .ok segments)
    (hfits : (injection.matrix segments (.record fields)).Fits range)
    (hstore : store plan.templateSpace desc.template = .ok template) (hsheets : template.sheets ≠ []) :
    ∃ document report, plan.render store (.record fields) = .ok [document] ∧
      document.template = desc.template ∧ document.reports = [report] ∧ report.warnings = [] ∧
      (injection.matrix segments (.record fields)).Placed range desc.overwrite template document.workbook ∧
      (injection.matrix segments (.record fields) = [] → document.workbook = template) := by
  obtain ⟨target, quote, hquote, hfills⟩ := hplan.mapping
  let matrix := injection.matrix segments (.record fields)
  let prepared : Tree := .record (Tree.insertField injection.key matrix.tree fields)
  have hprepare : plan.prepare (.record fields) = .ok prepared := by
    rw [prepare, hplan.matrices, injectAll, MatrixInjection.apply_eq_ok hparse]
    rfl
  have hvalue : desc.dialect.evaluate prepared (desc.dialect.keyPath quote injection.key) =
      .ok (.one matrix.tree) := by
    apply desc.dialect.evaluate_keyPath hquote
    rw [Tree.lookup_insertField, if_pos rfl]
  obtain ⟨rendering, hrender, hworkbook, hwarnings⟩ := hfills.exists_render hvalue hsheets
  rw [Matrix.overflow_tree hfits] at hwarnings
  have hreference := Template.resolve_of_isPlain hplan.template plan.bindings
  refine ⟨_, _, render_of_single hprepare hplan.sections hreference hstore hrender, rfl, rfl,
    hwarnings, ?_, ?_⟩
  · rw [hworkbook]
    exact Matrix.placed_editAll hfits desc.overwrite hsheets
  · -- A list without items is filled like any list that is no list of lists, and gives no cell anything.
    intro hempty
    have hnone : range.assign matrix.tree = [] := by
      rw [show matrix = [] from hempty]
      exact range.assign_list_nil
    rw [hworkbook, hnone]
    rfl

/-- A matrix under a key with a quote, in a template with a formula where one of its cells would be. -/
theorem render_placesMatrix_key_with_quote :
    let injection : MatrixInjection :=
      { source := "$.plans", target := some "plan's", options := { columnSpacing := 0 } }
    let desc : Section :=
      { template := "compare.xlsx", mappings := ⟨[("B2:C9", "['plan\\'s']")], by decide⟩ }
    let plan : Plan := { matrices := [injection], sections := [desc] }
    let fields : List (String × Tree) :=
      [("plans", .list [.record
        [("benefits", .list [.record [("name", .text "Dental"), ("value", .boolean true)]]),
          ("planName", .text "Basic")]])]
    let segments : List Segment := [.field "plans"]
    let matrix : Matrix := [[.text "Benefit", .text "Basic"], [.text "Dental", .boolean true]]
    let range : CellRange := ⟨⟨1, 1⟩, ⟨8, 2⟩, by decide, by decide⟩
    let template : Workbook := ⟨[(Sheet.new "S").set ⟨2, 2⟩ (.formula "1+1")]⟩
    let source : TemplateSource := fun _ => .ok template
    plan.PlacesMatrix injection desc range ∧ injection.matrix segments (.record fields) = matrix ∧
      ∃ document report, plan.render source (.record fields) = .ok [document] ∧
        document.template = desc.template ∧ document.reports = [report] ∧ report.warnings = [] ∧
        (injection.matrix segments (.record fields)).Placed range desc.overwrite template document.workbook ∧
        (injection.matrix segments (.record fields) = [] → document.workbook = template) := by
  intro injection desc plan fields segments matrix range template source
  have hplan : plan.PlacesMatrix injection desc range :=
    { matrices := rfl
      sections := rfl
      template := Template.isPlain_of_not_mem (by decide)
      mapping := ⟨"B2:C9", '\'', .inl rfl,
        { sheet := rfl, groups := rfl, mappings := by decide +kernel, target := by decide +kernel }⟩ }
  have hmatrix : injection.matrix segments (.record fields) = matrix := by decide +kernel
  have hfits : (injection.matrix segments (.record fields)).Fits range := by
    rw [hmatrix]
    unfold Matrix.Fits
    decide
  exact ⟨hplan, hmatrix, render_placesMatrix hplan (by decide +kernel) hfits rfl (by decide)⟩

end Plan

end SheetFill
