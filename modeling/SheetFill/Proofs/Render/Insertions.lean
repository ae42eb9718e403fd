import SheetFill.Proofs.Render.Edits
import SheetFill.Proofs.Sheet.Protection

/-!
# Where a render moves rows

The rows that a section inserts are known before it is rendered: one block for each table that
inserts rows, at the row of its start cell, of as many rows as the table writes. `Workbook.finalRow`
composes the blocks of a sheet in the order of the groups. It is the row map of the edits that the
section's steps leave.
-/

namespace SheetFill

/-- A block of rows that a table inserts on a sheet. -/
structure Insertion where
  sheet : Nat
  /-- The row above which the block comes. -/
  start : Nat
  count : Nat
deriving DecidableEq

/-- Where a block moves a row of a sheet. -/
def Insertion.movedRow (insertion : Insertion) (sheet row : Nat) : Nat :=
  if insertion.sheet = sheet then Cells.movedRow insertion.start insertion.count row else row

/-- Where blocks move a row of a sheet, one after the other. -/
def rowAfter (insertions : List Insertion) (sheet row : Nat) : Nat :=
  insertions.foldl (fun row insertion => insertion.movedRow sheet row) row

theorem rowAfter_append (first second : List Insertion) (sheet row : Nat) :
    rowAfter (first ++ second) sheet row = rowAfter second sheet (rowAfter first sheet row) :=
  List.foldl_append

namespace Surroundings

variable (s : Surroundings)

/-- The block that a group inserts, if it repeats the items of a list as rows of a table that
inserts them. -/
def insertion? (sectionDialect : Dialect) (data : Tree) (group : FieldGroup) : Option Insertion := do
  let table ← group.repeating
  let items ← group.items? sectionDialect data
  let (sheet, row) ← (table.start s.workbook s.defaultSheet).toOption
  if table.isTable && table.insertRows then some ⟨sheet, row, table.roomFor row items.length⟩ else none

/-- The blocks that a section inserts, in the order of its groups. -/
def insertions (desc : Section) (data : Tree) : List Insertion :=
  desc.groups.filterMap (s.insertion? desc.dialect data)

end Surroundings

/-- Where rendering a section moves a row of a sheet. -/
def Workbook.finalRow (workbook : Workbook) (desc : Section) (data : Tree) (sheet row : Nat) : Nat :=
  match workbook.resolve desc.sheet with
  | .ok defaultSheet => rowAfter (Surroundings.insertions ⟨workbook, defaultSheet⟩ desc data) sheet row
  | .error _ => row

namespace Step

/-- The block that a step inserts. -/
def insertion? : Step → Option Insertion
  | table group _ items sheet row =>
    if group.insertRows then some ⟨sheet, row, group.roomFor row items.length⟩ else none
  | cell _ _ _ | range _ _ _ _ | field _ _ | warn _ => none

/-- Steps without tables insert nothing. -/
theorem filterMap_insertion?_eq_nil {steps : List Step}
    (h : ∀ group dialect items sheet row, table group dialect items sheet row ∉ steps) :
    steps.filterMap insertion? = [] := by
  rw [List.filterMap_eq_nil_iff]
  intro step hstep
  cases step with
  | table group dialect items sheet row => exact absurd hstep (h group dialect items sheet row)
  | cell | range | field | warn => rfl

/-- The edits of a step move rows as its block does. -/
theorem movedRowAll_edits (overwrite : Bool) (step : Step) (i row : Nat) :
    movedRowAll (editsOf i (step.edits overwrite)) row = rowAfter step.insertion?.toList i row := by
  cases step with
  | cell sheet c datum =>
    rw [edits, editsOf_cons]
    split <;> rfl
  | range target sheet range value =>
    rw [edits, editsOf_map]
    split
    · exact movedRowAll_writes overwrite _ row
    · rfl
  | table group dialect items sheet start =>
    rw [edits, editsOf_map, insertion?]
    cases group.insertRows with
    | false =>
      split
      · exact movedRowAll_writes group.overwrite _ row
      · rfl
    | true =>
      simp only [if_true, Option.toList, rowAfter, List.foldl_cons, List.foldl_nil, Insertion.movedRow]
      split
      · rw [movedRowAll_append, movedRowAll_writes]
        rfl
      · rfl
  | field name text => rfl
  | warn warning => rfl

/-- The edits of steps move rows as their blocks do. -/
theorem movedRowAll_flatMap_edits (overwrite : Bool) (steps : List Step) (i row : Nat) :
    movedRowAll (editsOf i (steps.flatMap (·.edits overwrite))) row =
      rowAfter (steps.filterMap insertion?) i row := by
  induction steps generalizing row with
  | nil => rfl
  | cons step rest ih =>
    have hblocks : (step :: rest).filterMap insertion? =
        step.insertion?.toList ++ rest.filterMap insertion? := by
      cases h : step.insertion? <;> simp [h]
    rw [List.flatMap_cons, editsOf_append, movedRowAll_append, movedRowAll_edits, ih, hblocks,
      rowAfter_append]

end Step

namespace Surroundings

variable (s : Surroundings)

/-- The steps of a group insert the block of the group. -/
theorem filterMap_insertion?_groupSteps (sectionDialect : Dialect) (data : Tree) (group : FieldGroup) :
    (s.groupSteps sectionDialect data group).filterMap Step.insertion? =
      (s.insertion? sectionDialect data group).toList := by
  unfold insertion?
  cases hrepeating : group.repeating with
  | none =>
    rw [groupSteps_of_repeating_eq_none hrepeating]
    exact Step.filterMap_insertion?_eq_nil fun _ _ _ _ _ => table_not_mem_plainGroupSteps
  | some table =>
    cases hitems : group.items? sectionDialect data with
    | none =>
      obtain ⟨warning, hsteps⟩ := s.groupSteps_of_items?_eq_none hrepeating hitems
      simp [hsteps, Step.insertion?]
    | some items =>
      rw [groupSteps_of_items?_eq_some hrepeating hitems]
      simp only [Option.bind_eq_bind, Option.bind_some]
      cases htable : table.isTable with
      | false =>
        rw [repeatingSteps_of_not_isTable htable, Step.filterMap_insertion?_eq_nil (by simp)]
        cases table.start s.workbook s.defaultSheet <;> rfl
      | true =>
        cases hstart : table.start s.workbook s.defaultSheet with
        | error fault =>
          rw [repeatingSteps_of_start_eq_error htable hstart]
          rfl
        | ok place =>
          obtain ⟨sheet, row⟩ := place
          rw [repeatingSteps_of_start_eq_ok htable hstart]
          cases hinsert : table.insertRows <;> simp [Step.insertion?, Except.toOption, hinsert]

/-- The steps of a section insert the blocks of its groups, in order. -/
theorem filterMap_insertion?_steps (desc : Section) (data : Tree) :
    (s.steps desc data).filterMap Step.insertion? = s.insertions desc data := by
  rw [steps, List.filterMap_append, Step.filterMap_insertion?_eq_nil, List.nil_append,
    List.filterMap_flatMap, insertions, List.filterMap_eq_flatMap_toList]
  · simp only [filterMap_insertion?_groupSteps]
  · intro _ _ _ _ _ h
    obtain ⟨⟨target, path⟩, -, hmem⟩ := List.mem_flatMap.mp h
    exact table_not_mem_mappingSteps hmem

end Surroundings

end SheetFill
