import SheetFill.Proofs.Cell.Bounds
import SheetFill.Proofs.Group.FaultyFields
import SheetFill.Proofs.Lists
import SheetFill.Proofs.Render.Steps
import SheetFill.Proofs.Sheet.Writes

/-!
# What a table counts, reports and places

A table that inserts no rows writes one block of data for every item that has a row. The blocks have one length, the
number of columns with a path that can be read, and one number of warnings for every path that cannot, so that counts and
warnings are multiples of the number of rows. Keys are reported once, for a map has no key twice. Where the keys name
different columns no cell is given two data, and each takes the value of its item unless it is protected.

Main statement: a table whose start cell is not found gives a fault and leaves no other trace; any other table counts,
reports and places its items in this way.
-/

namespace SheetFill

/-- An expression that is refused gives a fault of its own code. -/
theorem Dialect.code_of_evaluate_eq_error {dialect : Dialect} {tree : Tree} {expression : String} {fault : Fault}
    (h : dialect.evaluate tree expression = .error fault) : fault.code = .invalidPath := by
  unfold evaluate parse at h
  dsimp only at h
  split at h
  · cases h
  · cases h
    rfl

/-- A key that names no column gives a fault of its own code. -/
theorem Column.code_of_ofKey_eq_error {key : String} {fault : Fault} (h : ofKey key = .error fault) :
    fault.code = .invalidColumnKey := by
  unfold ofKey at h
  dsimp only at h
  split at h
  · cases h
  · cases h
    rfl

namespace RepeatingGroup

/-- The start cell cannot be read, or it names a sheet that is not there. -/
def StartUnknown (group : RepeatingGroup) (workbook : Workbook) : Prop :=
  (∃ fault, CellAddress.parse group.startText = .error fault) ∨
    ∃ address name, CellAddress.parse group.startText = .ok address ∧ address.sheet = some name ∧
      name ∉ workbook.names

/-- No two keys name the same column. -/
def ColumnsDiffer (group : RepeatingGroup) : Prop :=
  ∀ e ∈ group.fields.entries, ∀ other ∈ group.fields.entries, ∀ col,
    Column.ofKey e.1 = .ok col → Column.ofKey other.1 = .ok col → e = other

/-- The key names a column, and the path can be read. -/
def writes (dialect : Dialect) (e : String × String) : Bool :=
  (Column.ofKey e.1).isOk && dialect.reads e.2

/-- The key names a column, and the path is this one and cannot be read. -/
def misses (dialect : Dialect) (path : String) (e : String × String) : Bool :=
  (Column.ofKey e.1).isOk && decide (e.2 = path) && !dialect.reads path

/-- One of the table's rows, counted from `row`, gives a value of its item to a cell; a missing value is null. -/
def Gives (group : RepeatingGroup) (dialect : Dialect) (items : List Tree) (row rows : Nat) (c : Coordinate)
    (datum : Tree) : Prop :=
  ∃ i item key path selection, i < rows ∧ items[i]? = some item ∧ (key, path) ∈ group.fields.entries ∧
    Column.ofKey key = .ok c.col ∧ c.row = row + i ∧ dialect.evaluate item path = .ok selection ∧
    datum = selection.tree

variable {group : RepeatingGroup} {dialect : Dialect}

section Start

/-- A table starts nowhere exactly if its start cell cannot be read or names a sheet that is not there. -/
theorem startUnknown_iff {workbook : Workbook} (defaultSheet : Nat) :
    group.StartUnknown workbook ↔ ∃ fault, group.start workbook defaultSheet = .error fault := by
  unfold StartUnknown start
  cases CellAddress.parse group.startText with
  | error fault => simp [bind, Except.bind]
  | ok address =>
    cases hsheet : address.sheet with
    | none => simp [hsheet, bind, Except.bind]
    | some name =>
      have hresolve := @Workbook.exists_resolve_eq_error_iff workbook name
      cases hfound : workbook.resolve (some name) <;> simp_all [bind, Except.bind]

/-- A table starts on a sheet that is there. -/
theorem lt_of_start_eq_ok {workbook : Workbook} {defaultSheet sheet row : Nat}
    (hdefault : defaultSheet < workbook.sheets.length) (h : group.start workbook defaultSheet = .ok (sheet, row)) :
    sheet < workbook.sheets.length := by
  obtain ⟨_, -, -, rfl | hfound⟩ := group.start_eq_ok h
  · exact hdefault
  · exact Workbook.lt_of_resolve_eq_ok hfound

end Start

section Data

/-- A row has a datum for every column with a path that can be read. -/
theorem length_rowData (group : RepeatingGroup) (dialect : Dialect) (item : Tree) (row : Nat) :
    (group.rowData dialect item row).length = group.fields.entries.countP (writes dialect) := by
  rw [rowData, columns, List.filterMap_filterMap, List.length_filterMap_eq_countP]
  refine List.countP_congr fun e _ => ?_
  obtain ⟨key, path⟩ := e
  simp only [writes, ← dialect.isOk_evaluate item]
  cases Column.ofKey key with
  | error fault => simp [Except.isOk, Except.toBool]
  | ok col => cases hselection : dialect.evaluate item path <;> simp [hselection, Except.isOk, Except.toBool]

/-- A table has as many data as rows and columns with a path that can be read. -/
theorem length_tableData (group : RepeatingGroup) (dialect : Dialect) (row : Nat) (items : List Tree) :
    (group.tableData dialect row items).length = items.length * group.fields.entries.countP (writes dialect) := by
  have hrow : ∀ e : Tree × Nat, (group.rowData dialect e.1 e.2).length = group.fields.entries.countP (writes dialect) :=
    fun e => group.length_rowData dialect e.1 e.2
  rw [tableData, length_flatMap_blocks hrow, List.length_zipIdx]

/-- The data of a row are the values of its item at the paths that can be read. -/
theorem mem_rowData_iff {item : Tree} {row : Nat} {c : Coordinate} {datum : Tree} :
    (c, datum) ∈ group.rowData dialect item row ↔
      ∃ key path selection, (key, path) ∈ group.fields.entries ∧ Column.ofKey key = .ok c.col ∧ c.row = row ∧
        dialect.evaluate item path = .ok selection ∧ datum = selection.tree := by
  simp only [rowData, columns, List.mem_filterMap, Prod.exists]
  constructor
  · rintro ⟨col, path, ⟨key, _, hentry, hcolumn⟩, hdatum⟩
    split at hcolumn
    · next found hkey =>
      cases hcolumn
      split at hdatum
      · next selection hselection =>
        cases hdatum
        exact ⟨key, path, selection, hentry, hkey, rfl, hselection, rfl⟩
      · cases hdatum
    · cases hcolumn
  · rintro ⟨key, path, selection, hentry, hkey, rfl, hselection, rfl⟩
    exact ⟨c.col, path, ⟨key, path, hentry, by simp [hkey]⟩, by simp [hselection]⟩

/-- The data of a table are what it gives to cells. -/
theorem mem_tableData_iff {items : List Tree} {row rows : Nat} {c : Coordinate} {datum : Tree} :
    (c, datum) ∈ group.tableData dialect row (items.take rows) ↔ group.Gives dialect items row rows c datum := by
  simp only [tableData, List.mem_flatMap, Prod.exists, mem_rowData_iff, Gives]
  constructor
  · rintro ⟨item, r, hitem, key, path, selection, hentry, hkey, hrow, hselection, hdatum⟩
    obtain ⟨hstart, hget⟩ := List.mem_zipIdx_iff_le_and_getElem?_sub.mp hitem
    rw [List.getElem?_take] at hget
    split at hget
    · next hroom =>
      exact ⟨r - row, item, key, path, selection, hroom, hget, hentry, hkey, by omega, hselection, hdatum⟩
    · cases hget
  · rintro ⟨i, item, key, path, selection, hroom, hget, hentry, hkey, hrow, hselection, hdatum⟩
    refine ⟨item, row + i, ?_, key, path, selection, hentry, hkey, hrow, hselection, hdatum⟩
    refine List.mem_zipIdx_iff_le_and_getElem?_sub.mpr ⟨Nat.le_add_right _ _, ?_⟩
    rw [Nat.add_sub_cancel_left, List.getElem?_take, if_pos hroom, hget]

/-- Where no two keys name the same column a cell is given one datum at most. -/
theorem Gives.eq {items : List Tree} {row rows : Nat} {c : Coordinate} {datum other : Tree}
    (hdiffer : group.ColumnsDiffer) (h : group.Gives dialect items row rows c datum)
    (hother : group.Gives dialect items row rows c other) : datum = other := by
  obtain ⟨i, item, key, path, selection, -, hitem, hentry, hkey, hrow, hselection, rfl⟩ := h
  obtain ⟨j, item', key', path', selection', -, hitem', hentry', hkey', hrow', hselection', rfl⟩ := hother
  obtain rfl : i = j := by omega
  obtain rfl := Option.some.inj (hitem.symm.trans hitem')
  obtain ⟨rfl, rfl⟩ := Prod.mk.inj (hdiffer _ hentry _ hentry' _ hkey hkey')
  rw [Except.ok.inj (hselection.symm.trans hselection')]

end Data

section Warnings

variable {code : FaultCode} {target : String} {first second : List Warning}

/-- How many warnings of a code there are about a target. -/
def reports (warnings : List Warning) (code : FaultCode) (target : String) : Nat :=
  warnings.countP fun w => w.code = code ∧ w.target = target

theorem reports_append : reports (first ++ second) code target = reports first code target + reports second code target :=
  List.countP_append

/-- Warnings of another code do not count. -/
theorem reports_eq_zero {other : FaultCode} (h : ∀ w ∈ first, w.code = other) (hne : other ≠ code) :
    reports first code target = 0 := by
  refine List.countP_eq_zero.mpr fun w hw hcounted => hne ?_
  rw [← h w hw, (of_decide_eq_true hcounted).1]

/-- Warnings about keys have the code of keys. -/
theorem code_of_mem_columnWarnings {w : Warning} (h : w ∈ group.columnWarnings) : w.code = .invalidColumnKey := by
  obtain ⟨⟨key, path⟩, -, hw⟩ := List.mem_filterMap.mp h
  dsimp only at hw
  split at hw
  · cases hw
  · next hkey =>
    cases hw
    exact Column.code_of_ofKey_eq_error hkey

/-- Warnings about paths have the code of paths, whatever items they come from. -/
theorem code_of_mem_pathWarnings {paths : List String} {items : List Tree} {w : Warning}
    (h : w ∈ items.flatMap (pathWarnings paths dialect)) : w.code = .invalidPath := by
  obtain ⟨item, -, hitem⟩ := List.mem_flatMap.mp h
  obtain ⟨path, -, hw⟩ := List.mem_filterMap.mp hitem
  split at hw
  · cases hw
  · next hselection =>
    cases hw
    exact Dialect.code_of_evaluate_eq_error hselection

/-- A key that names no column is reported once. -/
theorem reports_columnWarnings (group : RepeatingGroup) (key : String) :
    reports group.columnWarnings .invalidColumnKey key =
      if key ∈ group.fields.entries.map Prod.fst ∧ (Column.ofKey key).isOk = false then 1 else 0 := by
  have hcount : reports group.columnWarnings .invalidColumnKey key =
      group.fields.entries.countP fun e => e.1 == key && !(Column.ofKey key).isOk := by
    rw [reports, columnWarnings, List.countP_filterMap]
    refine List.countP_congr fun e _ => ?_
    obtain ⟨name, path⟩ := e
    by_cases hname : name = key
    · subst hname
      cases hkey : Column.ofKey name with
      | ok col => simp [hkey, Except.isOk, Except.toBool]
      | error fault =>
        simp [hkey, Fault.warning, Column.code_of_ofKey_eq_error hkey, Except.isOk, Except.toBool]
    · cases hkey : Column.ofKey name <;> simp [hkey, hname, Fault.warning]
  rw [hcount]
  cases hkey : (Column.ofKey key).isOk with
  | true => simp
  | false =>
    have honce := group.fields.nodup.count (a := key)
    rw [List.count_eq_countP, List.countP_map] at honce
    simp only [Bool.not_false, Bool.and_true, and_true]
    exact honce

/-- A path that cannot be read is reported once for every column that has it. -/
theorem reports_pathWarnings (group : RepeatingGroup) (dialect : Dialect) (item : Tree) (path : String) :
    reports (pathWarnings (group.columns.map Prod.snd) dialect item) .invalidPath path =
      group.fields.entries.countP (misses dialect path) := by
  rw [reports, pathWarnings, columns, List.filterMap_map, List.filterMap_filterMap, List.countP_filterMap]
  refine List.countP_congr fun e _ => ?_
  obtain ⟨key, other⟩ := e
  cases hkey : Column.ofKey key with
  | error fault => simp [misses, hkey, Except.isOk, Except.toBool]
  | ok col =>
    by_cases hother : other = path
    · subst hother
      cases hselection : dialect.evaluate item other with
      | ok selection =>
        simp [misses, hkey, hselection, ← dialect.isOk_evaluate item, Except.isOk, Except.toBool]
      | error fault =>
        simp [misses, hkey, hselection, ← dialect.isOk_evaluate item, Fault.warning,
          Dialect.code_of_evaluate_eq_error hselection, Except.isOk, Except.toBool]
    · cases hselection : dialect.evaluate item other <;> simp [misses, hkey, hselection, hother, Fault.warning]

end Warnings

/-- A table of items was written from a row of a sheet on. As many rows as there is room for were written, every datum of
them was counted, every key and path at fault was reported as often as it came up, and items without a row were reported
together. Protected cells keep what they hold; the others that the table gives something take it, if no two keys name the
same column; everything else is as it was. -/
structure Expanded (group : RepeatingGroup) (dialect : Dialect) (items : List Tree) (workbook : Workbook)
    (sheet row : Nat) (outcome : TableOutcome) : Prop where
  rows : outcome.rows = min (group.itemCount items.length) (maxRow + 1 - row)
  counted : outcome.tally.written + outcome.tally.skipped =
    outcome.rows * group.fields.entries.countP (writes dialect)
  keys : ∀ key, reports outcome.warnings .invalidColumnKey key =
    if key ∈ group.fields.entries.map Prod.fst ∧ (Column.ofKey key).isOk = false then 1 else 0
  paths : ∀ path, reports outcome.warnings .invalidPath path =
    outcome.rows * group.fields.entries.countP (misses dialect path)
  dropped : outcome.warnings.filter (fun w => w.code = .dataTruncated) =
    if outcome.rows < group.itemCount items.length then
      [⟨.dataTruncated, group.startText,
        Text.natText (group.itemCount items.length - outcome.rows) ++ " item(s) past the last sheet row dropped"⟩]
    else []
  codes : ∀ w ∈ outcome.warnings, w.code = .invalidColumnKey ∨ w.code = .invalidPath ∨ w.code = .dataTruncated
  kept : ∀ c, (workbook.sheet sheet).Protected (group.overwrite = false) c →
    outcome.workbook.content sheet c = workbook.content sheet c
  placed : group.ColumnsDiffer → ∀ c datum, group.Gives dialect items row outcome.rows c datum →
    ¬ (workbook.sheet sheet).Protected (group.overwrite = false) c →
      outcome.workbook.content sheet c = datum.cellValue
  others : ∀ i c, (i = sheet → ∀ datum, ¬ group.Gives dialect items row outcome.rows c datum) →
    outcome.workbook.content i c = workbook.content i c
  names : outcome.workbook.names = workbook.names
  merges : outcome.workbook.sheets.map (·.merges) = workbook.sheets.map (·.merges)

section Expansion

variable (group : RepeatingGroup) (dialect : Dialect) (items : List Tree)

/-- The keys at fault are reported once each. -/
theorem reports_tableWarnings_key (row : Nat) (key : String) :
    reports (group.tableWarnings dialect items row) .invalidColumnKey key =
      if key ∈ group.fields.entries.map Prod.fst ∧ (Column.ofKey key).isOk = false then 1 else 0 := by
  have hpaths : reports ((items.take (group.roomFor row items.length)).flatMap
      (pathWarnings (group.columns.map Prod.snd) dialect)) .invalidColumnKey key = 0 :=
    reports_eq_zero (fun _ => code_of_mem_pathWarnings) (by decide)
  have hdropped : reports (group.droppedWarnings (group.itemCount items.length - group.roomFor row items.length))
      .invalidColumnKey key = 0 :=
    reports_eq_zero (fun _ => group.code_of_mem_droppedWarnings) (by decide)
  rw [tableWarnings, reports_append, reports_append, reports_columnWarnings, hpaths, hdropped, Nat.add_zero]

/-- The paths at fault are reported once for every row and column. -/
theorem reports_tableWarnings_path (row : Nat) (path : String) :
    reports (group.tableWarnings dialect items row) .invalidPath path =
      group.roomFor row items.length * group.fields.entries.countP (misses dialect path) := by
  have hblocks : reports ((items.take (group.roomFor row items.length)).flatMap
      (pathWarnings (group.columns.map Prod.snd) dialect)) .invalidPath path =
        group.roomFor row items.length * group.fields.entries.countP (misses dialect path) := by
    rw [reports, countP_flatMap_blocks fun item => group.reports_pathWarnings dialect item path,
      group.length_take_roomFor]
  have hkeys : reports group.columnWarnings .invalidPath path = 0 :=
    reports_eq_zero (fun _ => code_of_mem_columnWarnings) (by decide)
  have hdropped : reports (group.droppedWarnings (group.itemCount items.length - group.roomFor row items.length))
      .invalidPath path = 0 :=
    reports_eq_zero (fun _ => group.code_of_mem_droppedWarnings) (by decide)
  rw [tableWarnings, reports_append, reports_append, hblocks, hkeys, hdropped, Nat.zero_add, Nat.add_zero]

/-- Items without a row are reported together, all other warnings are about keys and paths. -/
theorem filter_tableWarnings (row : Nat) :
    (group.tableWarnings dialect items row).filter (fun w => w.code = .dataTruncated) =
      group.droppedWarnings (group.itemCount items.length - group.roomFor row items.length) := by
  have hkeys : group.columnWarnings.filter (fun w => w.code = .dataTruncated) = [] := by
    refine List.filter_eq_nil_iff.mpr fun w hw => ?_
    simp [code_of_mem_columnWarnings hw]
  have hpaths : ((items.take (group.roomFor row items.length)).flatMap
      (pathWarnings (group.columns.map Prod.snd) dialect)).filter (fun w => w.code = .dataTruncated) = [] := by
    refine List.filter_eq_nil_iff.mpr fun w hw => ?_
    simp [code_of_mem_pathWarnings hw]
  rw [tableWarnings, List.filter_append, List.filter_append, hkeys, hpaths, List.nil_append, List.nil_append]
  refine List.filter_eq_self.mpr fun w hw => ?_
  simp [group.code_of_mem_droppedWarnings hw]

/-- A table that inserts no rows, written from a row of a sheet on. -/
theorem expanded_expandAt (hplain : group.insertRows = false) {workbook : Workbook} {sheet : Nat}
    (hsheet : sheet < workbook.sheets.length) (row : Nat) :
    group.Expanded dialect items workbook sheet row (group.expandAt dialect items sheet row workbook) := by
  have hdata : (Workbook.writeAll sheet group.overwrite
      (group.tableData dialect row (items.take (group.roomFor row items.length))) (workbook, .zero)).1 =
      workbook.editAll ((Edit.writes group.overwrite
        (group.tableData dialect row (items.take (group.roomFor row items.length)))).map fun edit => (sheet, edit)) :=
    Workbook.fst_writeAll ..
  have hcount := Workbook.written_add_skipped_writeAll sheet group.overwrite
    (group.tableData dialect row (items.take (group.roomFor row items.length))) workbook .zero
  rw [length_tableData, length_take_roomFor] at hcount
  rw [group.expandAt_eq]
  simp only [makeRoom, hplain, Bool.false_eq_true, if_false, hdata]
  refine
    { rows := rfl
      counted := hcount.trans (Nat.zero_add _)
      keys := group.reports_tableWarnings_key dialect items row
      paths := group.reports_tableWarnings_path dialect items row
      dropped := ?_
      codes := fun w hw => ?_
      kept := fun c => Workbook.content_editAll_data_of_protected hsheet
      placed := fun hdiffer c datum hgives => ?_
      others := fun i c hnone => Workbook.content_editAll_data_of_not_mem fun hi datum hmem => ?_
      names := Workbook.names_editAll workbook _
      merges := Workbook.merges_editAll (Workbook.isWrite_of_mem_map_writes sheet _ _) workbook }
  · rw [filter_tableWarnings, droppedWarnings]
    by_cases hroom : group.roomFor row items.length < group.itemCount items.length
    · rw [if_neg (Nat.sub_ne_zero_of_lt hroom), if_pos hroom]
    · rw [if_pos (Nat.sub_eq_zero_of_le (Nat.le_of_not_lt hroom)), if_neg hroom]
  · rcases List.mem_append.mp hw with hw | hw
    · rcases List.mem_append.mp hw with hw | hw
      · exact .inl (code_of_mem_columnWarnings hw)
      · exact .inr (.inl (code_of_mem_pathWarnings hw))
    · exact .inr (.inr (group.code_of_mem_droppedWarnings hw))
  · exact Workbook.content_editAll_data_of_not_protected hsheet (mem_tableData_iff.mpr hgives)
      fun other hother => (mem_tableData_iff.mp hother).eq hdiffer hgives
  · exact hnone hi datum (mem_tableData_iff.mp hmem)

/-- A table whose start cell cannot be read or names a sheet that is not there gives a fault, and rendering it adds the
warning of that fault and changes nothing else. Any other table that inserts no rows starts in a row of a sheet that is
there and is expanded from it on. -/
theorem expandTable_accounts (hplain : group.insertRows = false) {workbook : Workbook} {defaultSheet : Nat}
    (hdefault : defaultSheet < workbook.sheets.length) :
    (group.StartUnknown workbook →
      ∃ fault, group.expandTable dialect items defaultSheet workbook = .error fault ∧
        (group.isTable = true → ∀ overwrite r,
          Rendering.performAll overwrite r
              (Surroundings.repeatingSteps ⟨workbook, defaultSheet⟩ group dialect items) =
            r.warnAll [fault.warning group.startText])) ∧
    (¬ group.StartUnknown workbook →
      ∃ sheet row outcome, group.start workbook defaultSheet = .ok (sheet, row) ∧
        sheet < workbook.sheets.length ∧ row ≤ maxRow ∧
        group.expandTable dialect items defaultSheet workbook = .ok outcome ∧
        group.Expanded dialect items workbook sheet row outcome) := by
  constructor
  · intro hunknown
    obtain ⟨fault, hstart⟩ := (startUnknown_iff defaultSheet).mp hunknown
    refine ⟨fault, by rw [expandTable, hstart]; rfl, fun htable overwrite r => ?_⟩
    rw [Surroundings.repeatingSteps_of_start_eq_error htable hstart]
    rfl
  · intro hknown
    cases hstart : group.start workbook defaultSheet with
    | error fault => exact absurd ((startUnknown_iff defaultSheet).mpr ⟨fault, hstart⟩) hknown
    | ok place =>
      obtain ⟨sheet, row⟩ := place
      have hsheet := lt_of_start_eq_ok hdefault hstart
      have hrow := group.le_of_start_eq_ok hstart
      refine ⟨sheet, row, group.expandAt dialect items sheet row workbook, rfl, hsheet, hrow, ?_,
        group.expanded_expandAt dialect items hplain hsheet row⟩
      rw [expandTable, hstart]
      rfl

end Expansion

/-- Two of three items and a single row left, a key that names no column, a path that cannot be read, and a covered
cell. -/
theorem expandTable_accounts_last_row :
    let group : RepeatingGroup :=
      { startCell := some "Data!A1048576", maxItems := some 2
        fields := ⟨[("A", "name"), ("2", "age"), ("?", "age"), ("C", "a..b")], by decide⟩ }
    let items : List Tree := [.record [("age", .text "7"), ("name", .text "Ann")], .null, .null]
    let region : CellRange := ⟨⟨1048570, 1⟩, ⟨1048575, 1⟩, by decide, by decide⟩
    let workbook : Workbook := ⟨[Sheet.new "S", (Sheet.new "Data").merge region]⟩
    group.insertRows = false ∧ 0 < workbook.sheets.length ∧ ¬ group.StartUnknown workbook ∧
      group.start workbook 0 = .ok (1, 1048575) ∧
      ∃ outcome, group.expandTable .dotted items 0 workbook = .ok outcome ∧
        group.Expanded .dotted items workbook 1 1048575 outcome ∧
        outcome.rows = 1 ∧ outcome.tally = ⟨1, 1⟩ ∧ outcome.warnings.length = 3 ∧
        outcome.workbook.content 1 ⟨1048575, 0⟩ = .text "Ann" := by
  intro group items region workbook
  have hstart : group.start workbook 0 = .ok (1, 1048575) := by decide +kernel
  have hknown : ¬ group.StartUnknown workbook := by
    intro hunknown
    obtain ⟨fault, hfault⟩ := (startUnknown_iff 0).mp hunknown
    rw [hstart] at hfault
    cases hfault
  obtain ⟨sheet, row, outcome, hplace, -, -, hexpand, hexpanded⟩ :=
    (group.expandTable_accounts .dotted items rfl (by decide : 0 < workbook.sheets.length)).2 hknown
  rw [hstart] at hplace
  cases hplace
  refine ⟨rfl, by decide, hknown, hstart, outcome, hexpand, hexpanded, ?_⟩
  have houtcome : group.expandAt .dotted items 1 1048575 workbook = outcome := by
    rw [expandTable, hstart] at hexpand
    exact Except.ok.inj hexpand
  subst houtcome
  decide +kernel

end RepeatingGroup

end SheetFill
