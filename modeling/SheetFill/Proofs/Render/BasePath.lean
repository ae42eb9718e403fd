import SheetFill.Proofs.Cell.Address
import SheetFill.Proofs.Group.FaultyFields
import SheetFill.Proofs.Path.Join
import SheetFill.Proofs.Render.Edits

/-!
# Groups with a base path

The fields of a group are relative to its base path. Where the base is a node, the group does what it does without a
base path and with joined expressions, step by step. Where there is nothing at the base, the fields are relative to
null: the root is null then, and a path that starts with a wildcard is an empty list, so that both are there although
the base is not; every other path is missing.

Main statements: a group and its joined form render alike; and what each field of a group without a base does, by the
form of its expression.
-/

namespace SheetFill

/-- The map with its values changed. -/
def TextMap.mapValues (m : TextMap) (f : String → String) : TextMap where
  entries := m.entries.map fun e => (e.1, f e.2)
  nodup := by
    rw [List.map_map]
    exact m.nodup

namespace FieldGroup

/-- The group without a base path, whose expressions start at the root. -/
def joined (group : FieldGroup) (dialect : Dialect) (base : String) : FieldGroup :=
  { group with basePath := none, fields := group.fields.mapValues (dialect.join base) }

/-- The expressions of the group can be read, and there are no blanks around them. -/
def IsReadable (group : FieldGroup) (dialect : Dialect) : Prop :=
  ∀ e ∈ group.fields.entries, Text.trimmed e.2 = e.2 ∧ dialect.reads e.2 = true

instance (group : FieldGroup) (dialect : Dialect) : Decidable (group.IsReadable dialect) :=
  inferInstanceAs (Decidable (∀ e ∈ group.fields.entries, _))

end FieldGroup

/-- Below the node that a trimmed base selects, a trimmed field that can be read selects what the joined expression
selects in the whole tree. -/
theorem Dialect.evaluate_of_reads {dialect : Dialect} {tree node : Tree} {base field : String}
    (hbase : Text.trimmed base = base) (hnode : dialect.evaluate tree base = .ok (.one node))
    (hfield : Text.trimmed field = field) (hread : dialect.reads field = true) :
    dialect.evaluate node field = dialect.evaluate tree (dialect.join base field) := by
  unfold Dialect.reads at hread
  cases hparse : dialect.parse field with
  | error fault =>
    rw [hparse] at hread
    cases hread
  | ok segments => exact evaluate_eq_evaluate_join hbase hfield hnode hparse

namespace Surroundings

variable {s : Surroundings} {group : FieldGroup} {dialect sectionDialect : Dialect} {tree node : Tree}
  {base : String}

/-- The steps of a section are those in front of a group, those of the group, and those behind it. -/
theorem steps_of_groups {desc : Section} {front back : List FieldGroup}
    (h : desc.groups = front ++ group :: back) :
    s.steps desc tree = s.steps { desc with groups := front } tree ++
      (s.groupSteps desc.dialect tree group ++ back.flatMap (s.groupSteps desc.dialect tree)) := by
  rw [steps, steps, h, List.flatMap_append, List.flatMap_cons, List.append_assoc]

/-- A field does the same for two expressions that select the same. -/
theorem fieldSteps_congr {a b : Tree} {target path other : String} (hread : dialect.reads path = true)
    (h : dialect.evaluate a path = dialect.evaluate b other) :
    s.fieldSteps dialect a target path = s.fieldSteps dialect b target other := by
  rw [← dialect.isOk_evaluate a] at hread
  unfold fieldSteps
  rw [← h]
  cases hselection : dialect.evaluate a path with
  | ok selection => rfl
  | error fault =>
    rw [hselection] at hread
    cases hread

/-- A group whose base is a node has the steps of its joined form. -/
theorem plainGroupSteps_joined (hbase : Text.trimmed base = base)
    (hnode : dialect.evaluate tree base = .ok (.one node)) (hpath : group.basePath = some base)
    (hfields : group.IsReadable dialect) :
    s.plainGroupSteps group dialect tree = s.plainGroupSteps (group.joined dialect base) dialect tree := by
  have hsteps : ∀ e ∈ group.fields.entries,
      s.fieldSteps dialect node e.1 e.2 = s.fieldSteps dialect tree e.1 (dialect.join base e.2) := by
    intro e he
    obtain ⟨htrimmed, hread⟩ := hfields e he
    exact fieldSteps_congr hread (Dialect.evaluate_of_reads hbase hnode htrimmed hread)
  have hstart : Surroundings.base dialect tree group.basePath = .ok node := by
    rw [hpath, Surroundings.base, hnode]
    rfl
  rw [plainGroupSteps, hstart]
  change group.fields.entries.flatMap (fun e => s.fieldSteps dialect node e.1 e.2) =
    (group.fields.entries.map fun e => (e.1, dialect.join base e.2)).flatMap fun e =>
      s.fieldSteps dialect tree e.1 e.2
  rw [List.flatMap_map]
  exact List.flatMap_congr hsteps

/-- A group whose base is a node has the steps of its joined form, in a section. -/
theorem groupSteps_joined (hrepeating : group.repeating = none)
    (hdialect : group.dialect.getD sectionDialect = dialect) (hbase : Text.trimmed base = base)
    (hnode : dialect.evaluate tree base = .ok (.one node)) (hpath : group.basePath = some base)
    (hfields : group.IsReadable dialect) :
    s.groupSteps sectionDialect tree group = s.groupSteps sectionDialect tree (group.joined dialect base) := by
  have hjoined : (group.joined dialect base).repeating = none := hrepeating
  have hsame : (group.joined dialect base).dialect.getD sectionDialect = dialect := hdialect
  rw [groupSteps_of_repeating_eq_none hrepeating, groupSteps_of_repeating_eq_none hjoined, hdialect, hsame]
  exact plainGroupSteps_joined hbase hnode hpath hfields

end Surroundings

/-- A base path that selects a node composes with the fields: below the node a field selects what the joined expression
selects in the whole tree, so a section renders alike with the group and with its joined form in its place. -/
theorem Dialect.base_composes {dialect : Dialect} {tree node : Tree} {base : String}
    (hbase : Text.trimmed base = base) (hnode : dialect.evaluate tree base = .ok (.one node)) :
    (∀ field, Text.trimmed field = field → dialect.reads field = true →
        dialect.evaluate node field = dialect.evaluate tree (dialect.join base field)) ∧
      ∀ (workbook : Workbook) (desc : Section) (front back : List FieldGroup) (group : FieldGroup),
        desc.groups = front ++ group :: back → group.repeating = none → group.basePath = some base →
        group.dialect.getD desc.dialect = dialect → group.IsReadable dialect →
        workbook.render desc tree =
          workbook.render { desc with groups := front ++ group.joined dialect base :: back } tree := by
  refine ⟨fun field => evaluate_of_reads hbase hnode, ?_⟩
  intro workbook desc front back group hgroups hrepeating hpath hdialect hfields
  let other : Section := { desc with groups := front ++ group.joined dialect base :: back }
  have hother : other.groups = front ++ group.joined dialect base :: back := rfl
  have hsteps (s : Surroundings) : s.steps desc tree = s.steps other tree := by
    rw [s.steps_of_groups hgroups, s.steps_of_groups hother,
      s.groupSteps_joined hrepeating hdialect hbase hnode hpath hfields]
  unfold Workbook.render
  simp only [hsteps, other]

/-- A base with blanks inside, and fields of every form: a name, a bracket, a wildcard and the root. -/
theorem Dialect.base_composes_every_form :
    let plan : Tree := .record [("list price", .number (.integer 5)), ("name", .text "Gold")]
    let tree : Tree := .record [("plans", .list [.null, plan])]
    let base := "plans [ -1 ]"
    let fields := [("A1", "name"), ("B1", "['list price']"), ("all", "*"), ("whole", ".")]
    let group : FieldGroup := { basePath := some base, fields := ⟨fields, by decide⟩ }
    let desc : Section := { template := "t.xlsx", groups := [group] }
    let joined : Section := { template := "t.xlsx", groups := [group.joined dotted base] }
    let workbook : Workbook := ⟨[.new "S"]⟩
    dotted.evaluate tree base = .ok (.one plan) ∧ group.IsReadable dotted ∧
      (group.joined dotted base).fields.entries =
        [("A1", "plans [ -1 ].name"), ("B1", "plans [ -1 ]['list price']"), ("all", "plans [ -1 ].*"),
          ("whole", "plans [ -1 ]")] ∧
      dotted.evaluate plan "*" = dotted.evaluate tree "plans [ -1 ].*" ∧
      workbook.render desc tree = workbook.render joined tree ∧
      ∃ rendering, workbook.render joined tree = .ok rendering ∧ rendering.report.tally = ⟨2, 0⟩ ∧
        rendering.report.flatFields.get? "all" = some "[5,\"Gold\"]" := by
  intro plan tree base fields group desc joined workbook
  have hbase : Text.trimmed base = base := by decide +kernel
  have hnode : dotted.evaluate tree base = .ok (.one plan) := by decide +kernel
  have hreadable : group.IsReadable dotted := by decide +kernel
  obtain ⟨hfields, hrender⟩ := base_composes hbase hnode
  have hsame : workbook.render desc tree = workbook.render joined tree :=
    hrender workbook desc [] [] group rfl rfl rfl rfl hreadable
  have hjoin : dotted.join base "*" = "plans [ -1 ].*" := by decide +kernel
  have hstar := hfields "*" (by decide +kernel) (by decide +kernel)
  rw [hjoin] at hstar
  exact ⟨hnode, hreadable, by decide +kernel, hstar, hsame, _, rfl, by decide +kernel, by decide +kernel⟩

/-- What a path selects in null. -/
theorem walk_null (segments : List Segment) :
    walk .null segments =
      if segments = [] then .one .null
      else if segments.head? = some .wildcard then .many [] else .missing := by
  cases segments with
  | nil => rfl
  | cons segment rest =>
    rw [if_neg (List.cons_ne_nil segment rest), List.head?_cons]
    have hselect : [Tree.null].flatMap segment.select = [] := by cases segment <;> rfl
    by_cases hsegment : segment = .wildcard
    · subst hsegment
      rw [if_pos rfl, walk_of_mem List.mem_cons_self, List.takeWhile_cons_of_neg (by decide)]
      rfl
    · rw [if_neg (mt Option.some.inj hsegment), walk, walkFrom_false_cons hsegment, if_pos hselect]

namespace Surroundings

variable {s : Surroundings} {overwrite : Bool} {dialect : Dialect} {base : Tree} {target path : String}
  {selection : Selection} {r : Rendering}

/-- A group without a base has the steps of its fields relative to null. -/
theorem groupSteps_of_absent {group : FieldGroup} {sectionDialect : Dialect} {data : Tree}
    (hrepeating : group.repeating = none) (hpath : group.basePath = some path)
    (habsent : (group.dialect.getD sectionDialect).evaluate data path = .ok .missing) :
    s.groupSteps sectionDialect data group =
      group.fields.entries.flatMap fun e => s.fieldSteps (group.dialect.getD sectionDialect) .null e.1 e.2 := by
  have hbase : Surroundings.base (group.dialect.getD sectionDialect) data group.basePath = .ok .null := by
    rw [hpath, Surroundings.base, habsent]
    rfl
  rw [groupSteps_of_repeating_eq_none hrepeating, plainGroupSteps, hbase]

/-- Renders a field of a group relative to a base. -/
def performField (s : Surroundings) (overwrite : Bool) (dialect : Dialect) (base : Tree) (r : Rendering)
    (field : String × String) : Rendering :=
  r.performAll overwrite (s.fieldSteps dialect base field.1 field.2)

/-- A target shows a value: a flat field has its text, and to a cell a datum is written, unless the cell is
protected. -/
structure Shows (s : Surroundings) (overwrite : Bool) (target text : String) (datum : Tree)
    (before after : Rendering) : Prop where
  flat : isCellTarget target = false →
    after = { before with report.flatFields := before.report.flatFields.insert target text }
  cell : isRangeReference target = false → ∀ address i, CellAddress.parse target = .ok address →
    s.sheet address.sheet = .ok i →
    after = before.count (before.workbook.write i overwrite address.cell datum)
      (Tally.zero.count (before.workbook.outcome i overwrite address.cell))

/-- A cell that can be read, of a sheet that is there, is written. -/
theorem place_of_cell {address : CellAddress} {i : Nat} (htarget : isRangeReference target = false)
    (haddress : CellAddress.parse target = .ok address) (hsheet : s.sheet address.sheet = .ok i) (value : Tree) :
    s.place target value = .ok (.cell i address.cell value) := by
  rw [place, if_neg (by simp [htarget])]
  exact bind_eq_ok_iff.mpr ⟨address, haddress, bind_eq_ok_iff.mpr ⟨i, hsheet, rfl⟩⟩

/-- A range that can be read, of a sheet that is there, is filled. -/
theorem place_of_range {address : RangeAddress} {i : Nat} (haddress : RangeAddress.parse target = .ok address)
    (hsheet : s.sheet address.sheet = .ok i) (value : Tree) :
    s.place target value = .ok (.range target i address.range value) := by
  rw [place, if_pos (isRangeReference_of_parse haddress)]
  exact bind_eq_ok_iff.mpr ⟨address, haddress, bind_eq_ok_iff.mpr ⟨i, hsheet, rfl⟩⟩

/-- A field shows what its expression selects. -/
theorem shows_performField (h : dialect.evaluate base path = .ok selection) :
    s.Shows overwrite target selection.text selection.tree r
      (s.performField overwrite dialect base r (target, path)) where
  flat htarget := by
    simp only [performField, fieldSteps, h, htarget, Bool.false_eq_true, if_false]
    rfl
  cell hrange address i haddress hsheet := by
    simp only [performField, fieldSteps, h, isCellTarget_of_parse haddress, if_true, placeSelection, hrange,
      Bool.and_false, Bool.false_eq_true, if_false, place_of_cell hrange haddress hsheet]
    rfl

/-- A range is no flat field. -/
theorem isCellTarget_of_isRangeReference (h : isRangeReference target = true) : isCellTarget target = true := by
  rw [isCellTarget, h, Bool.true_or, Bool.true_or]

/-- A field without a value leaves a range as it is. -/
theorem performField_of_missing (h : dialect.evaluate base path = .ok .missing)
    (htarget : isRangeReference target = true) :
    s.performField overwrite dialect base r (target, path) = r := by
  simp only [performField, fieldSteps, h, isCellTarget_of_isRangeReference htarget, if_true, placeSelection, htarget,
    Selection.isMissing, Bool.and_self]
  rfl

/-- A field with a value fills a range with it. -/
theorem performField_of_range {address : RangeAddress} {i : Nat} (h : dialect.evaluate base path = .ok selection)
    (hselection : selection.isMissing = false) (haddress : RangeAddress.parse target = .ok address)
    (hsheet : s.sheet address.sheet = .ok i) :
    s.performField overwrite dialect base r (target, path) =
      r.perform overwrite (.range target i address.range selection.tree) := by
  have hcell : isCellTarget target = true :=
    isCellTarget_of_isRangeReference (isRangeReference_of_parse haddress)
  simp only [performField, fieldSteps, h, hcell, if_true, placeSelection, hselection, Bool.false_and,
    Bool.false_eq_true, if_false, place_of_range haddress hsheet]
  rfl

end Surroundings

namespace Rendering

variable (overwrite : Bool) (r : Rendering) (target : String) (i : Nat) (range : CellRange)

/-- Nothing written and nothing to report is no change. -/
theorem count_zero_warnAll_nil : (r.count r.workbook .zero).warnAll [] = r := by
  simp only [count, warnAll, Tally.add, Tally.zero, Nat.add_zero, List.append_nil]

/-- An empty list leaves a range as it is. -/
theorem perform_range_empty : r.perform overwrite (.range target i range (.list [])) = r := by
  have hoverflow : range.overflow (.list []) = 0 := Nat.zero_sub _
  have hassign : range.assign (.list []) = [] := by
    simp only [CellRange.assign, startsWithList, Bool.false_eq_true, if_false, CellRange.assignFlat, List.take_nil,
      List.zipIdx_nil, List.map_nil]
  simp only [perform, Workbook.fill, hassign, hoverflow]
  exact r.count_zero_warnAll_nil

/-- Null goes into the first cell of a range. -/
theorem perform_range_null :
    r.perform overwrite (.range target i range .null) = r.perform overwrite (.cell i range.first .null) := by
  change (r.perform overwrite (.cell i range.first .null)).warnAll [] = _
  simp only [warnAll, List.append_nil]

end Rendering

namespace Workbook

/-- Where there is nothing at the base path of a group, its fields are rendered one after the other relative to null.
An expression that does not start with a wildcard gives a flat field the empty text and a cell nothing; one that does
gives both the text of an empty list. Ranges stay as they are, except that the root puts nothing into the first cell. -/
theorem render_absent_base {workbook : Workbook} {desc : Section} {data : Tree} {front back : List FieldGroup}
    {group : FieldGroup} {path : String} {sheet : Nat} (hsheet : workbook.resolve desc.sheet = .ok sheet)
    (hgroups : desc.groups = front ++ group :: back) (hrepeating : group.repeating = none)
    (hpath : group.basePath = some path)
    (habsent : (group.dialect.getD desc.dialect).evaluate data path = .ok .missing) :
    let s : Surroundings := ⟨workbook, sheet⟩
    let dialect := group.dialect.getD desc.dialect
    let start : Rendering := ⟨workbook, { id := desc.id, template := desc.template }⟩
    let before := start.performAll desc.overwrite (s.steps { desc with groups := front } data)
    let field := s.performField desc.overwrite dialect .null
    workbook.render desc data =
        .ok ((group.fields.entries.foldl field before).performAll desc.overwrite
          (back.flatMap (s.groupSteps desc.dialect data))) ∧
      ∀ (r : Rendering) (target expression : String) (segments : List Segment),
        dialect.parse expression = .ok segments →
        (segments.head? ≠ some .wildcard →
          s.Shows desc.overwrite target "" .null r (field r (target, expression))) ∧
        (segments.head? = some .wildcard →
          s.Shows desc.overwrite target "[]" (.list []) r (field r (target, expression))) ∧
        ∀ address i, RangeAddress.parse target = .ok address → s.sheet address.sheet = .ok i →
          (segments ≠ [] → field r (target, expression) = r) ∧
          (segments = [] →
            field r (target, expression) = r.count (r.workbook.write i desc.overwrite address.range.first .null)
              (Tally.zero.count (r.workbook.outcome i desc.overwrite address.range.first))) := by
  intro s dialect start before field
  constructor
  · refine render_eq_ok_iff.mpr ⟨sheet, hsheet, ?_⟩
    rw [s.steps_of_groups hgroups, s.groupSteps_of_absent hrepeating hpath habsent, Rendering.performAll_append,
      Rendering.performAll_append]
    congr 1
    exact (List.foldl_flatMap ..).symm
  · intro r target expression segments hparse
    have hselection {selection : Selection} (h : walk .null segments = selection) :
        dialect.evaluate .null expression = .ok selection := by
      rw [Dialect.evaluate, hparse, Except.map, h]
    have hwalk := walk_null segments
    -- Null and a missing value show the same, so for fields and cells only the wildcard makes a difference.
    refine ⟨fun hhead => ?other, fun hhead => ?wildcard, fun address i haddress hfound => ⟨?filled, ?root⟩⟩
    case other =>
      rw [if_neg hhead] at hwalk
      split at hwalk <;> exact Surroundings.shows_performField (hselection hwalk)
    case wildcard =>
      have hne : segments ≠ [] := by
        rintro rfl
        cases hhead
      rw [if_neg hne, if_pos hhead] at hwalk
      exact Surroundings.shows_performField (hselection hwalk)
    case filled =>
      intro hne
      rw [if_neg hne] at hwalk
      split at hwalk
      · change s.performField desc.overwrite dialect .null r (target, expression) = r
        rw [Surroundings.performField_of_range (hselection hwalk) rfl haddress hfound]
        exact r.perform_range_empty desc.overwrite target i address.range
      · exact Surroundings.performField_of_missing (hselection hwalk) (isRangeReference_of_parse haddress)
    case root =>
      intro hroot
      rw [if_pos hroot] at hwalk
      change s.performField desc.overwrite dialect .null r (target, expression) = _
      rw [Surroundings.performField_of_range (hselection hwalk) rfl haddress hfound]
      exact r.perform_range_null desc.overwrite target i address.range

/-- The forms of expressions in a group whose base is not there, behind a mapping and in front of another group. -/
theorem render_absent_base_every_form :
    let fields := [("name", "name"), ("A1:B2", "name"), ("all", "[*].price"), ("C1:D2", "")]
    let group : FieldGroup := { basePath := some "plan", fields := ⟨fields, by decide⟩ }
    let last : FieldGroup := { fields := ⟨[("title", "title")], by decide⟩ }
    let desc : Section :=
      { template := "t.xlsx", mappings := ⟨[("A1", "title")], by decide⟩, groups := [group, last] }
    let data : Tree := .record [("title", .text "Staff")]
    let workbook : Workbook := ⟨[.new "S"]⟩
    let field := Surroundings.performField ⟨workbook, 0⟩ false .dotted .null
    (∃ before, workbook.render desc data =
        .ok ((fields.foldl field before).perform false (.field "title" "Staff"))) ∧
      ∀ r : Rendering,
        field r ("name", "name") = { r with report.flatFields := r.report.flatFields.insert "name" "" } ∧
        field r ("A1:B2", "name") = r ∧
        field r ("all", "[*].price") = { r with report.flatFields := r.report.flatFields.insert "all" "[]" } ∧
        field r ("C1:D2", "") =
          r.count (r.workbook.write 0 false ⟨0, 2⟩ .null) (Tally.zero.count (r.workbook.outcome 0 false ⟨0, 2⟩)) := by
  intro fields group last desc data workbook field
  have habsent : Dialect.dotted.evaluate data "plan" = .ok .missing := by decide +kernel
  have hsheet : workbook.resolve desc.sheet = .ok 0 := rfl
  have hgroups : desc.groups = [] ++ group :: [last] := rfl
  obtain ⟨hrender, hfields⟩ := render_absent_base hsheet hgroups rfl rfl habsent
  have hname : Dialect.dotted.parse "name" = .ok [.field "name"] := by decide +kernel
  have hprice : Dialect.dotted.parse "[*].price" = .ok [.wildcard, .field "price"] := by decide +kernel
  have hroot : Dialect.dotted.parse "" = .ok [] := by decide +kernel
  have hblock : RangeAddress.parse "A1:B2" = .ok ⟨none, ⟨⟨0, 0⟩, ⟨1, 1⟩, by decide, by decide⟩⟩ := rfl
  have hlast : RangeAddress.parse "C1:D2" = .ok ⟨none, ⟨⟨0, 2⟩, ⟨1, 3⟩, by decide, by decide⟩⟩ := rfl
  refine ⟨⟨_, hrender⟩, fun r => ⟨?name, ?block, ?all, ?root⟩⟩
  case name => exact ((hfields r "name" "name" _ hname).1 (by decide)).flat (by decide +kernel)
  case block => exact ((hfields r "A1:B2" "name" _ hname).2.2 _ 0 hblock rfl).1 (by decide)
  case all => exact ((hfields r "all" "[*].price" _ hprice).2.1 (by decide)).flat (by decide +kernel)
  case root => exact ((hfields r "C1:D2" "" _ hroot).2.2 _ 0 hlast rfl).2 rfl

/-- A group without a base: a path that starts with a wildcard gives a field and a cell the text of an empty list, and
the root clears the first cell of a range. -/
theorem render_absent_base_not_empty :
    let sheet := ((Sheet.new "S").set ⟨0, 0⟩ (.text "old")).set ⟨0, 1⟩ (.text "kept")
    let workbook : Workbook := ⟨[sheet]⟩
    let group : FieldGroup :=
      { basePath := some "absent"
        fields := ⟨[("flat", "[*]"), ("A1", "[*]"), ("B1:B2", ".")], by decide⟩ }
    let desc : Section := { id := "main", template := "t.xlsx", overwrite := true, groups := [group] }
    let data : Tree := .record []
    Dialect.dotted.evaluate data "absent" = .ok .missing ∧
      ∃ rendering, workbook.render desc data = .ok rendering ∧
        rendering.report.flatFields.entries = [("flat", "[]")] ∧
        rendering.workbook.content 0 ⟨0, 0⟩ = .text "[]" ∧
        workbook.content 0 ⟨0, 1⟩ = .text "kept" ∧ rendering.workbook.content 0 ⟨0, 1⟩ = .empty := by
  intro sheet workbook group desc data
  exact ⟨by decide +kernel, _, rfl, by decide +kernel, by decide +kernel, by decide +kernel, by decide +kernel⟩

end Workbook

end SheetFill
