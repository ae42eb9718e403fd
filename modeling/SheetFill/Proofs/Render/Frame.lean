import SheetFill.Proofs.Cell.Address
import SheetFill.Proofs.Render.Addresses
import SheetFill.Proofs.Render.Faults
import SheetFill.Proofs.Render.Idempotence
import SheetFill.Proofs.Sheet.Writes

/-!
# What a render leaves alone

All edits of a section go to cells that it addresses, so that all other cells stay. Numbered fields
and flat fields of groups are no edits at all: without them a section addresses the same cells and
makes the same edits.

Main statement: a render that inserts no rows keeps the sheets, their merged regions, and the
content of every cell that the section does not address.
-/

namespace SheetFill

namespace Surroundings

variable {s : Surroundings} {i : Nat} {c : Coordinate}

/-- A flat field of a group covers no cell. -/
theorem not_covers_of_not_isCellTarget {target : String} (h : isCellTarget target = false) :
    ¬ s.Covers target i c := by
  rintro (⟨address, hparse, -⟩ | ⟨address, hparse, -⟩)
  · simp [isCellTarget, isRangeReference_of_parse hparse] at h
  · simp [isCellTarget_of_parse hparse] at h

end Surroundings

/-- The group without flat fields; nothing is left of a group of numbered fields. -/
def FieldGroup.withoutFlatFields? (group : FieldGroup) : Option FieldGroup :=
  match group.repeating with
  | none => some { group with fields := group.fields.filter fun target _ => isCellTarget target }
  | some table => if table.isTable then some group else none

/-- The section without the flat fields of its groups. -/
def Section.withoutFlatFields (desc : Section) : Section :=
  { desc with groups := desc.groups.filterMap FieldGroup.withoutFlatFields? }

namespace Surroundings

variable (s : Surroundings)

/-- Without its flat fields a group addresses the same cells. -/
theorem exists_groupAddresses_withoutFlatFields {sectionDialect : Dialect} {data : Tree}
    {group : FieldGroup} {i : Nat} {c : Coordinate} :
    (∃ plain, group.withoutFlatFields? = some plain ∧ s.GroupAddresses sectionDialect data plain i c) ↔
      s.GroupAddresses sectionDialect data group i c := by
  unfold FieldGroup.withoutFlatFields? GroupAddresses
  cases hrepeating : group.repeating with
  | some table => cases htable : table.isTable <;> simp [hrepeating, htable]
  | none =>
    simp only [Option.some.injEq, exists_eq_left', TextMap.filter, List.mem_filter]
    constructor
    · rintro ⟨e, ⟨hentry, -⟩, hcovers⟩
      exact ⟨e, hentry, hcovers⟩
    · rintro ⟨e, hentry, hcovers⟩
      refine ⟨e, ⟨hentry, ?_⟩, hcovers⟩
      cases htarget : isCellTarget e.1 with
      | true => rfl
      | false => exact absurd hcovers (not_covers_of_not_isCellTarget htarget)

/-- Without its flat fields a section addresses the same cells. -/
theorem addresses_withoutFlatFields {desc : Section} {data : Tree} {i : Nat} {c : Coordinate} :
    s.Addresses desc.withoutFlatFields data i c ↔ s.Addresses desc data i c := by
  refine or_congr Iff.rfl ?_
  constructor
  · rintro ⟨plain, hplain, haddresses⟩
    obtain ⟨group, hgroup, hwithout⟩ := List.mem_filterMap.mp hplain
    exact ⟨group, hgroup, s.exists_groupAddresses_withoutFlatFields.mp ⟨plain, hwithout, haddresses⟩⟩
  · rintro ⟨group, hgroup, haddresses⟩
    obtain ⟨plain, hwithout, hplain⟩ := s.exists_groupAddresses_withoutFlatFields.mpr haddresses
    exact ⟨plain, List.mem_filterMap.mpr ⟨group, hgroup, hwithout⟩, hplain⟩

/-- A flat field makes no edit. -/
theorem edits_fieldSteps_of_not_isCellTarget (overwrite : Bool) {target : String}
    (h : isCellTarget target = false) (dialect : Dialect) (base : Tree) (path : String) :
    (s.fieldSteps dialect base target path).flatMap (·.edits overwrite) = [] := by
  unfold fieldSteps
  cases dialect.evaluate base path with
  | ok selection => simp [h, Step.edits]
  | error fault => rfl

/-- Numbered fields make no edits. -/
theorem edits_groupSteps_of_not_isTable (overwrite : Bool) {group : FieldGroup} {table : RepeatingGroup}
    (hrepeating : group.repeating = some table) (hflat : table.isTable = false) (sectionDialect : Dialect)
    (data : Tree) :
    (s.groupSteps sectionDialect data group).flatMap (·.edits overwrite) = [] := by
  cases hitems : group.items? sectionDialect data with
  | none =>
    obtain ⟨warning, hsteps⟩ := s.groupSteps_of_items?_eq_none hrepeating hitems
    rw [hsteps]
    rfl
  | some items =>
    rw [groupSteps_of_items?_eq_some hrepeating hitems]
    refine List.flatMap_eq_nil_iff.mpr fun step hstep => ?_
    obtain ⟨name, text, rfl⟩ | ⟨warning, rfl⟩ := field_or_warn_of_mem_repeatingSteps hflat hstep <;> rfl

/-- Without its flat fields a group has the same edits. -/
theorem edits_groupSteps_withoutFlatFields (overwrite : Bool) (sectionDialect : Dialect) (data : Tree)
    (group : FieldGroup) :
    (group.withoutFlatFields?.toList.flatMap (s.groupSteps sectionDialect data)).flatMap
        (·.edits overwrite) =
      (s.groupSteps sectionDialect data group).flatMap (·.edits overwrite) := by
  unfold FieldGroup.withoutFlatFields?
  cases hrepeating : group.repeating with
  | none =>
    simp only [Option.toList_some, List.flatMap_singleton, groupSteps, hrepeating, plainGroupSteps]
    cases base (group.dialect.getD sectionDialect) data group.basePath with
    | error warning => rfl
    | ok tree =>
      dsimp only
      rw [TextMap.filter, flatMap_filter, List.flatMap_assoc, List.flatMap_assoc]
      congr 1
      funext e
      cases htarget : isCellTarget e.1 with
      | true => simp
      | false => simp [s.edits_fieldSteps_of_not_isCellTarget overwrite htarget]
  | some table =>
    cases htable : table.isTable with
    | true => simp [htable]
    | false =>
      rw [s.edits_groupSteps_of_not_isTable overwrite hrepeating htable]
      simp [htable]

/-- Without its flat fields a section has the same edits. -/
theorem edits_steps_withoutFlatFields (overwrite : Bool) (desc : Section) (data : Tree) :
    (s.steps desc.withoutFlatFields data).flatMap (·.edits overwrite) =
      (s.steps desc data).flatMap (·.edits overwrite) := by
  have hgroups : ((desc.groups.filterMap FieldGroup.withoutFlatFields?).flatMap
      (s.groupSteps desc.dialect data)).flatMap (·.edits overwrite) =
        (desc.groups.flatMap (s.groupSteps desc.dialect data)).flatMap (·.edits overwrite) := by
    rw [List.filterMap_eq_flatMap_toList, List.flatMap_assoc, List.flatMap_assoc, List.flatMap_assoc]
    simp only [← List.flatMap_assoc, edits_groupSteps_withoutFlatFields]
  rw [steps, steps, List.flatMap_append, List.flatMap_append, ← hgroups]
  rfl

end Surroundings

namespace Workbook

variable {workbook : Workbook} {desc : Section} {data : Tree} {rendering : Rendering}

/-- Without its flat fields a section is rendered to the same workbook. -/
theorem render_withoutFlatFields (h : workbook.render desc data = .ok rendering) :
    ∃ plain, workbook.render desc.withoutFlatFields data = .ok plain ∧
      plain.workbook = rendering.workbook := by
  obtain ⟨sheet, hresolve, rfl⟩ := render_eq_ok_iff.mp h
  refine ⟨_, render_eq_ok_iff.mpr ⟨sheet, hresolve, rfl⟩, ?_⟩
  rw [Rendering.workbook_performAll, Rendering.workbook_performAll]
  exact congrArg workbook.editAll (Surroundings.edits_steps_withoutFlatFields _ desc.overwrite desc data)

/-- A render that inserts no rows keeps the sheets with their names and order, their merged regions,
and the contents of all cells that the section does not address. Its flat fields address no cell and
change none. -/
theorem render_frame (hinserts : desc.InsertsNoRows) (hrender : workbook.render desc data = .ok rendering) :
    rendering.workbook.names = workbook.names ∧
      rendering.workbook.sheets.map (·.merges) = workbook.sheets.map (·.merges) ∧
      (∀ i c, ¬ workbook.Addresses desc data i c →
        rendering.workbook.content i c = workbook.content i c) ∧
      (∀ i c, workbook.Addresses desc.withoutFlatFields data i c ↔ workbook.Addresses desc data i c) ∧
      ∃ plain, workbook.render desc.withoutFlatFields data = .ok plain ∧
        plain.workbook = rendering.workbook := by
  obtain ⟨defaultSheet, hresolve, rfl⟩ := render_eq_ok_iff.mp hrender
  have hwrites : ∀ e ∈ (Surroundings.steps ⟨workbook, defaultSheet⟩ desc data).flatMap
      (·.edits desc.overwrite), e.2.IsWrite := fun e he => Surroundings.isWrite_of_mem_edits hinserts he
  refine ⟨names_of_render hrender, ?_, ?_, ?_, render_withoutFlatFields hrender⟩
  · rw [Rendering.workbook_performAll, merges_editAll hwrites]
  · intro i c hother
    rw [Rendering.workbook_performAll]
    refine content_editAll_of_not_writesTo hwrites ?_ workbook
    -- A write to the cell would come from a step that covers it, and the section would address it.
    rintro _ hmem ⟨overwrite, datum, rfl⟩
    obtain ⟨step, hstep, hedit⟩ := List.mem_flatMap.mp hmem
    exact hother ⟨defaultSheet, hresolve,
      Surroundings.addresses_of_mem_steps hstep (Step.covers_of_mem_edits hedit)⟩
  · intro i c
    exact exists_congr fun _ => and_congr_right fun _ => Surroundings.addresses_withoutFlatFields _

/-- A range, a cell of another sheet and a table of two rows are filled, next to a numbered field and a
flat field that is named like no cell. -/
theorem render_frame_two_sheets :
    let table : RepeatingGroup :=
      { startCell := some "B5", fields := ⟨[("A", "name"), ("3", "age"), ("?", "age")], by decide⟩ }
    let numbered : RepeatingGroup := { namePrefix := some "child", fields := ⟨[("A1", "name")], by decide⟩ }
    let desc : Section :=
      { template := "t.xlsx", overwrite := true
        mappings := ⟨[("A1:B2", "ages"), ("Other!C3", "title")], by decide⟩
        groups :=
          [{ fields := ⟨[("title", "title"), ("D1", "title")], by decide⟩ },
            { basePath := some "people", repeating := some table },
            { basePath := some "people", repeating := some numbered }] }
    let data : Tree :=
      .record [("ages", .list [.list [.text "1", .text "2", .text "3"], .text "4", .null]),
        ("people", .list [.record [("name", .text "Ann")], .record [("age", .text "30")]]),
        ("title", .text "Staff")]
    let workbook : Workbook :=
      ⟨[(Sheet.new "S").set ⟨6, 0⟩ (.text "below"), (Sheet.new "Other").set ⟨0, 0⟩ (.text "kept")]⟩
    desc.InsertsNoRows ∧
      ∃ rendering, workbook.render desc data = .ok rendering ∧
        rendering.workbook.names = workbook.names ∧
        rendering.workbook.sheets.map (·.merges) = workbook.sheets.map (·.merges) ∧
        (∀ i c, ¬ workbook.Addresses desc data i c →
          rendering.workbook.content i c = workbook.content i c) ∧
        (∀ i c, workbook.Addresses desc.withoutFlatFields data i c ↔ workbook.Addresses desc data i c) ∧
        ∃ plain, workbook.render desc.withoutFlatFields data = .ok plain ∧
          plain.workbook = rendering.workbook := by
  intro table numbered desc data workbook
  have hinserts : desc.InsertsNoRows := by
    intro group hgroup found hrepeating _
    simp only [desc, List.mem_cons, List.not_mem_nil, or_false] at hgroup
    rcases hgroup with rfl | rfl | rfl <;> cases hrepeating <;> rfl
  exact ⟨hinserts, _, rfl, render_frame hinserts rfl⟩

end Workbook

end SheetFill
