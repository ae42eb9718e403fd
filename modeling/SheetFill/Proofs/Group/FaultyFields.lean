import SheetFill.Proofs.Group.RowInsertion

/-!
# Groups without faulty fields

A column whose key names no column or whose path cannot be read writes nothing, and neither does a
numbered field whose path cannot be read. Taking them out of a group changes neither the cells of
its table nor its numbered fields. What is left gives no warning, except for items that have no row.
-/

namespace SheetFill

/-- The entries of a map whose keys and values fulfil a condition. -/
def TextMap.filter (m : TextMap) (p : String → String → Bool) : TextMap where
  entries := m.entries.filter fun e => p e.1 e.2
  nodup := m.nodup.sublist (List.filter_sublist.map Prod.fst)

/-- The expression can be read in the dialect. -/
def Dialect.reads (dialect : Dialect) (expression : String) : Bool :=
  (dialect.parse expression).isOk

/-- An expression that can be read selects something in every tree, be it nothing. -/
theorem Dialect.isOk_evaluate (dialect : Dialect) (tree : Tree) (expression : String) :
    (dialect.evaluate tree expression).isOk = dialect.reads expression := by
  unfold evaluate reads
  cases dialect.parse expression <;> rfl

namespace RepeatingGroup

variable (group : RepeatingGroup) (dialect : Dialect)

/-- Paths that can be read give no warnings. -/
theorem pathWarnings_eq_nil {paths : List String} (h : ∀ path ∈ paths, dialect.reads path = true)
    (item : Tree) : pathWarnings paths dialect item = [] := by
  refine List.filterMap_eq_nil_iff.mpr fun path hpath => ?_
  have hread := h path hpath
  rw [← dialect.isOk_evaluate item] at hread
  cases hselection : dialect.evaluate item path with
  | ok selection => rfl
  | error fault =>
    rw [hselection] at hread
    cases hread

/-- The group without the columns whose keys name no column or whose paths cannot be read. -/
def withoutFaultyColumns (group : RepeatingGroup) (dialect : Dialect) : RepeatingGroup :=
  { group with
    fields := group.fields.filter fun key path => (Column.ofKey key).isOk && dialect.reads path }

/-- The group without the fields whose paths cannot be read. -/
def withoutFaultyFields (group : RepeatingGroup) (dialect : Dialect) : RepeatingGroup :=
  { group with fields := group.fields.filter fun _ path => dialect.reads path }

/-- Faulty columns give no row a cell. -/
theorem rowData_withoutFaultyColumns (item : Tree) (row : Nat) :
    (group.withoutFaultyColumns dialect).rowData dialect item row = group.rowData dialect item row := by
  unfold rowData columns withoutFaultyColumns TextMap.filter
  rw [List.filterMap_filter, List.filterMap_filterMap, List.filterMap_filterMap]
  refine List.filterMap_congr fun e _ => ?_
  obtain ⟨key, path⟩ := e
  simp only [← dialect.isOk_evaluate item]
  cases Column.ofKey key with
  | error fault => rfl
  | ok col =>
    cases hselection : dialect.evaluate item path <;> simp [hselection, Except.isOk, Except.toBool]

/-- Faulty columns give a table no cells. -/
theorem tableData_withoutFaultyColumns (row : Nat) (items : List Tree) :
    (group.withoutFaultyColumns dialect).tableData dialect row items = group.tableData dialect row items := by
  unfold tableData
  simp only [rowData_withoutFaultyColumns]

/-- Faulty columns change neither the workbook nor the counts of a table. -/
theorem expandAt_withoutFaultyColumns (items : List Tree) (sheet row : Nat) (workbook : Workbook) :
    ((group.withoutFaultyColumns dialect).expandAt dialect items sheet row workbook).workbook =
        (group.expandAt dialect items sheet row workbook).workbook ∧
      ((group.withoutFaultyColumns dialect).expandAt dialect items sheet row workbook).tally =
        (group.expandAt dialect items sheet row workbook).tally := by
  rw [expandAt_eq, expandAt_eq]
  dsimp only
  rw [tableData_withoutFaultyColumns]
  exact ⟨rfl, rfl⟩

/-- The columns that are left can be read. -/
theorem mem_fields_withoutFaultyColumns {e : String × String}
    (h : e ∈ (group.withoutFaultyColumns dialect).fields.entries) :
    (Column.ofKey e.1).isOk = true ∧ dialect.reads e.2 = true :=
  (Bool.and_eq_true _ _).mp (List.mem_filter.mp h).2

/-- Without faulty columns a table warns of items past the last row alone. -/
theorem tableWarnings_withoutFaultyColumns (items : List Tree) (row : Nat) :
    (group.withoutFaultyColumns dialect).tableWarnings dialect items row =
      group.droppedWarnings (group.itemCount items.length - group.roomFor row items.length) := by
  have hcolumns : (group.withoutFaultyColumns dialect).columnWarnings = [] := by
    refine List.filterMap_eq_nil_iff.mpr fun e he => ?_
    obtain ⟨key, path⟩ := e
    have hkey := (group.mem_fields_withoutFaultyColumns dialect he).1
    cases hcol : Column.ofKey key with
    | ok col => simp only [hcol]
    | error fault =>
      rw [hcol] at hkey
      cases hkey
  have hpaths : ∀ path ∈ (group.withoutFaultyColumns dialect).columns.map Prod.snd,
      dialect.reads path = true := by
    intro path hpath
    obtain ⟨⟨col, _⟩, hmem, rfl⟩ := List.mem_map.mp hpath
    obtain ⟨⟨key, path⟩, he, hcolumn⟩ := List.mem_filterMap.mp hmem
    dsimp only at hcolumn
    split at hcolumn
    · cases hcolumn
      exact (group.mem_fields_withoutFaultyColumns dialect he).2
    · cases hcolumn
  have hitems : ∀ written : List Tree,
      written.flatMap
        (pathWarnings ((group.withoutFaultyColumns dialect).columns.map Prod.snd) dialect) = [] :=
    fun written => List.flatMap_eq_nil_iff.mpr fun item _ => pathWarnings_eq_nil dialect hpaths item
  rw [tableWarnings, hcolumns, hitems]
  rfl

/-- Items past the last row are reported as truncated data. -/
theorem code_of_mem_droppedWarnings {dropped : Nat} {w : Warning} (h : w ∈ group.droppedWarnings dropped) :
    w.code = .dataTruncated := by
  unfold droppedWarnings at h
  split at h
  · cases h
  · rw [List.mem_singleton.mp h]

/-- Faulty fields make no numbered fields. -/
theorem expandFlat_withoutFaultyFields (items : List Tree) :
    (group.withoutFaultyFields dialect).expandFlat dialect items = group.expandFlat dialect items := by
  have hitem : (group.withoutFaultyFields dialect).itemFields dialect = group.itemFields dialect := by
    funext item index
    unfold itemFields withoutFaultyFields TextMap.filter
    rw [List.filterMap_filter]
    refine List.filterMap_congr fun e _ => ?_
    obtain ⟨key, path⟩ := e
    simp only [← dialect.isOk_evaluate item]
    cases dialect.evaluate item path <;> rfl
  unfold expandFlat flatEntries
  rw [hitem]
  rfl

/-- Without faulty fields a group of numbered fields gives no warnings. -/
theorem flatWarnings_withoutFaultyFields (items : List Tree) :
    (group.withoutFaultyFields dialect).flatWarnings dialect items = [] := by
  refine List.flatMap_eq_nil_iff.mpr fun entry _ => pathWarnings_eq_nil dialect ?_ entry.1
  intro path hpath
  obtain ⟨e, he, rfl⟩ := List.mem_map.mp hpath
  exact (List.mem_filter.mp he).2

end RepeatingGroup

end SheetFill
