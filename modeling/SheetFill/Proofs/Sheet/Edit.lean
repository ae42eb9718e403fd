import SheetFill.Proofs.Fill.Write

/-!
# Edits

Whatever rendering does to a workbook is a row of edits, each of one sheet: a protected write or an
insertion of rows. The sheets do not see each other, so that a fact about all edits of a workbook is
a fact about the edits of each sheet.
-/

namespace SheetFill

/-- One change that rendering makes to a sheet. -/
inductive Edit where
  /-- A datum for a cell. -/
  | write (overwrite : Bool) (c : Coordinate) (datum : Tree)
  /-- Rows that are inserted above a row. -/
  | insert (start count : Nat)

namespace Edit

/-- The sheet after an edit. -/
def apply : Edit → Sheet → Sheet
  | write overwrite c datum, sheet => sheet.write overwrite c datum
  | insert start count, sheet => sheet.shiftDown start count

@[simp] theorem name_apply (edit : Edit) (sheet : Sheet) : (edit.apply sheet).name = sheet.name := by
  cases edit with
  | write overwrite c datum => exact sheet.name_write overwrite c datum
  | insert start count => exact sheet.name_shiftDown start count

/-- The data of cells as edits. -/
def writes (overwrite : Bool) (data : List (Coordinate × Tree)) : List Edit :=
  data.map fun (c, datum) => write overwrite c datum

end Edit

namespace Sheet

/-- The sheet after edits, one after the other. -/
def editAll (sheet : Sheet) (edits : List Edit) : Sheet :=
  edits.foldl (fun sheet edit => edit.apply sheet) sheet

@[simp] theorem editAll_nil (sheet : Sheet) : sheet.editAll [] = sheet := rfl

@[simp] theorem editAll_cons (sheet : Sheet) (edit : Edit) (rest : List Edit) :
    sheet.editAll (edit :: rest) = (edit.apply sheet).editAll rest := rfl

@[simp] theorem name_editAll (sheet : Sheet) (edits : List Edit) :
    (sheet.editAll edits).name = sheet.name := by
  induction edits generalizing sheet with
  | nil => rfl
  | cons edit rest ih => rw [editAll_cons, ih, Edit.name_apply]

end Sheet

/-- The edits that concern one sheet, in order. -/
def editsOf (i : Nat) (edits : List (Nat × Edit)) : List Edit :=
  (edits.filter (·.1 = i)).map Prod.snd

@[simp] theorem editsOf_nil (i : Nat) : editsOf i [] = [] := rfl

theorem editsOf_cons (i j : Nat) (edit : Edit) (rest : List (Nat × Edit)) :
    editsOf i ((j, edit) :: rest) = if j = i then edit :: editsOf i rest else editsOf i rest := by
  unfold editsOf
  by_cases h : j = i <;> simp [h]

theorem editsOf_append (i : Nat) (first second : List (Nat × Edit)) :
    editsOf i (first ++ second) = editsOf i first ++ editsOf i second := by
  simp [editsOf]

/-- Edits of one sheet concern that sheet alone. -/
theorem editsOf_map (i j : Nat) (edits : List Edit) :
    editsOf i (edits.map fun edit => (j, edit)) = if j = i then edits else [] := by
  induction edits with
  | nil => simp
  | cons edit rest ih =>
    rw [List.map_cons, editsOf_cons, ih]
    split <;> rfl

/-- An edit of one sheet is among all edits. -/
theorem mem_editsOf_iff {i : Nat} {edit : Edit} {edits : List (Nat × Edit)} :
    edit ∈ editsOf i edits ↔ (i, edit) ∈ edits := by
  simp only [editsOf, List.mem_map, List.mem_filter, decide_eq_true_eq]
  constructor
  · rintro ⟨⟨j, e⟩, ⟨hmem, rfl⟩, rfl⟩
    exact hmem
  · intro hmem
    exact ⟨(i, edit), ⟨hmem, rfl⟩, rfl⟩

namespace Workbook

/-- The workbook after edits of its sheets, one after the other. -/
def editAll (workbook : Workbook) (edits : List (Nat × Edit)) : Workbook :=
  edits.foldl (fun workbook edit => workbook.modify edit.1 edit.2.apply) workbook

@[simp] theorem editAll_nil (workbook : Workbook) : workbook.editAll [] = workbook := rfl

@[simp] theorem editAll_cons (workbook : Workbook) (edit : Nat × Edit) (rest : List (Nat × Edit)) :
    workbook.editAll (edit :: rest) = (workbook.modify edit.1 edit.2.apply).editAll rest := rfl

theorem editAll_append (workbook : Workbook) (first second : List (Nat × Edit)) :
    workbook.editAll (first ++ second) = (workbook.editAll first).editAll second :=
  List.foldl_append

/-- Every sheet undergoes its own edits. -/
theorem sheet?_editAll (workbook : Workbook) (edits : List (Nat × Edit)) (i : Nat) :
    (workbook.editAll edits).sheet? i = (workbook.sheet? i).map (·.editAll (editsOf i edits)) := by
  induction edits generalizing workbook with
  | nil => simp
  | cons e rest ih =>
    obtain ⟨j, edit⟩ := e
    rw [editAll_cons, ih, sheet?_modify, editsOf_cons]
    split
    · rw [Option.map_map]
      rfl
    · rfl

@[simp] theorem names_editAll (workbook : Workbook) (edits : List (Nat × Edit)) :
    (workbook.editAll edits).names = workbook.names := by
  induction edits generalizing workbook with
  | nil => rfl
  | cons e rest ih => rw [editAll_cons, ih, names_modify workbook e.1 e.2.name_apply]

/-- Writing data is a row of edits. -/
theorem fst_writeAll (i : Nat) (overwrite : Bool) (data : List (Coordinate × Tree))
    (state : Workbook × Tally) :
    (writeAll i overwrite data state).1 =
      state.1.editAll ((Edit.writes overwrite data).map fun edit => (i, edit)) := by
  induction data generalizing state with
  | nil => rfl
  | cons e rest ih =>
    obtain ⟨c, datum⟩ := e
    obtain ⟨workbook, tally⟩ := state
    rw [writeAll, ih, write_eq_modify]
    rfl

end Workbook

end SheetFill
