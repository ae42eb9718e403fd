import SheetFill.Proofs.Matrix.LastEntry

/-!
# A matrix that grows by a record

A further record is read behind all others. The keys that the others show keep their order and their spelling, and its
own new keys follow them; the columns of the others keep their places, and its column follows them.

Main statement: the matrix with a further record holds the matrix without it in its first rows and columns. If the
record has a label, one block of columns is added to these rows, with the label and with what the record shows for each
key, and below them a block of rows for each key that only this record has, which is blank in the columns of the
others. A record without a label adds nothing.
-/

namespace SheetFill

namespace Matrix

/-- The keys that a further record shows first, in the order in which it has them. -/
def addedKeys (o : MatrixOptions) (records : List Tree) (record : Tree) : List String :=
  ((keyTexts o record).map normalized).eraseDups.filter (· ∉ keys o records)

/-- A key as a record first writes it. -/
def firstWritten (o : MatrixOptions) (record : Tree) (key : String) : String :=
  ((keyTexts o record).find? (normalized · = key)).getD ""

/-- The columns of a record beside the rows of a key: what it shows for the key, and the spacing. -/
def columnsBesideKey (o : MatrixOptions) (cell : Tree) : Matrix :=
  spaced o cell :: List.replicate o.rowSpacing (List.replicate (1 + o.columnSpacing) blank)

/-- The block of columns of a record beside the header row and the rows of keys. -/
def addedColumns (o : MatrixOptions) (keys : List String) (label : String) (record : Tree) : Matrix :=
  spaced o (.text label) :: keys.flatMap fun key => columnsBesideKey o (shown o record key)

/-- The block of rows of a key that only the last of several records with a label has: the key as it is written there,
nothing in the columns of the others, what the record shows for the key, and the spacing below. -/
def addedRows (o : MatrixOptions) (others : Nat) (record : Tree) (key : String) : Matrix :=
  (.text (firstWritten o record key) ::
      (List.replicate (others * (1 + o.columnSpacing)) blank ++ spaced o (shown o record key))) ::
    List.replicate o.rowSpacing (List.replicate (1 + (others + 1) * (1 + o.columnSpacing)) blank)

/-- A matrix of records is grown by a further record with a label: it holds what it held, and beside it and below it
stands what the record adds. -/
structure GrownBy (o : MatrixOptions) (records : List Tree) (record : Tree) (label : String) (m grown : Matrix) :
    Prop where
  kept : (grown.take m.length).map (·.take (1 + (labelled o records).length * (1 + o.columnSpacing))) = m
  beside : (grown.take m.length).map (·.drop (1 + (labelled o records).length * (1 + o.columnSpacing))) =
    addedColumns o (keys o records) label record
  below : grown.drop m.length =
    (addedKeys o records record).flatMap (addedRows o (labelled o records).length record)

variable {o : MatrixOptions} {records : List Tree} {record : Tree} {label : String} {columns : List Column}
  {column : Column} {e : Entry}

/-- Of entries behind others, those with a new key are the first ones with their key. -/
theorem firstOfKeys_append (front back : List Entry) :
    firstOfKeys (front ++ back) = firstOfKeys front ++ (firstOfKeys back).filter (·.key ∉ front.map (·.key)) := by
  induction front with
  | nil =>
    simp [firstOfKeys]
  | cons first rest ih =>
    rw [List.cons_append, firstOfKeys, ih, List.filter_append, List.filter_filter, firstOfKeys, List.cons_append]
    congr 2
    refine List.filter_congr fun e _ => ?_
    rw [List.map_cons, ← Bool.decide_and, decide_eq_decide, List.mem_cons, not_or]

/-- Of a single column the first entries with each key count. -/
theorem keyEntries_singleton (column : Column) : keyEntries [column] = firstOfKeys column.entries := by
  rw [keyEntries, List.flatMap_singleton]

/-- The entries of a further column that show a key first. -/
def addedEntries (columns : List Column) (column : Column) : List Entry :=
  (keyEntries [column]).filter (·.key ∉ (columns.flatMap (·.entries)).map (·.key))

/-- The first entries of columns stay so, and those of a further column follow them. -/
theorem keyEntries_append_singleton (columns : List Column) (column : Column) :
    keyEntries (columns ++ [column]) = keyEntries columns ++ addedEntries columns column := by
  rw [keyEntries, List.flatMap_append, firstOfKeys_append, addedEntries, keyEntries_singleton, List.flatMap_singleton,
    keyEntries]

/-- The header row of a further column is longer by the label. -/
theorem headerRow_append_singleton (o : MatrixOptions) (columns : List Column) (column : Column) :
    headerRow o (columns ++ [column]) = headerRow o columns ++ spaced o (.text column.label) := by
  rw [headerRow, headerRow, List.flatMap_append, List.flatMap_singleton, List.cons_append]

/-- The row of a key is longer by the value of the further column. -/
theorem keyRow_append_singleton (o : MatrixOptions) (columns : List Column) (column : Column) (e : Entry) :
    keyRow o (columns ++ [column]) e = keyRow o columns e ++ spaced o (column.valueAt e.key) := by
  rw [keyRow, keyRow, List.flatMap_append, List.flatMap_singleton, List.cons_append]

/-- A row with a further column is wider by one block. -/
theorem width_append_singleton (o : MatrixOptions) (columns : List Column) (column : Column) :
    width o (columns ++ [column]) = width o columns + (1 + o.columnSpacing) := by
  rw [width, width, List.length_append, List.length_singleton, Nat.succ_mul, Nat.add_assoc]

/-- The rows of a key are longer by the columns of the further one. -/
theorem keyRows_append_singleton (o : MatrixOptions) (columns : List Column) (column : Column) (e : Entry) :
    keyRows o (columns ++ [column]) e =
      List.zipWith (· ++ ·) (keyRows o columns e) (columnsBesideKey o (column.valueAt e.key)) := by
  rw [keyRows, keyRows, columnsBesideKey, List.zipWith_cons_cons, keyRow_append_singleton, List.zipWith_replicate',
    List.replicate_append_replicate, width_append_singleton]

/-- Blocks of equal length that are put side by side are put side by side as a whole. -/
theorem flatMap_zipWith_append {α : Type} {f g : α → Matrix} (h : ∀ a, (f a).length = (g a).length) (l : List α) :
    l.flatMap (fun a => List.zipWith (· ++ ·) (f a) (g a)) = List.zipWith (· ++ ·) (l.flatMap f) (l.flatMap g) := by
  induction l with
  | nil => rfl
  | cons a rest ih => rw [List.flatMap_cons, List.flatMap_cons, List.flatMap_cons, List.zipWith_append (h a), ih]

/-- The rows and the columns of a key are as many. -/
theorem length_columnsBesideKey (o : MatrixOptions) (cell : Tree) :
    (columnsBesideKey o cell).length = 1 + o.rowSpacing := by
  rw [columnsBesideKey, List.length_cons, List.length_replicate, Nat.add_comm]

/-- A column without a key shows nothing for it. -/
theorem valueAt_eq_blank {key : String} (h : key ∉ column.entries.map (·.key)) : column.valueAt key = blank := by
  have hnone : column.entries.reverse.find? (·.key = key) = none := by
    refine List.find?_eq_none.mpr fun e he hkey => h (List.mem_map.mpr ⟨e, List.mem_reverse.mp he, ?_⟩)
    exact of_decide_eq_true hkey
  rw [Column.valueAt, hnone]
  rfl

/-- The row of a key is blank in columns without the key. -/
theorem keyRow_of_not_mem (h : e.key ∉ (columns.flatMap (·.entries)).map (·.key)) :
    keyRow o columns e = .text e.display :: List.replicate (columns.length * (1 + o.columnSpacing)) blank := by
  have hblank : ∀ c ∈ columns, spaced o (c.valueAt e.key) = spaced o blank := by
    intro c hc
    rw [valueAt_eq_blank]
    intro hkey
    obtain ⟨other, hother, hsame⟩ := List.mem_map.mp hkey
    exact h (List.mem_map.mpr ⟨other, List.mem_flatMap.mpr ⟨c, hc, hother⟩, hsame⟩)
  rw [keyRow, List.flatMap_congr hblank, flatMap_spaced_blank]

theorem labelled_singleton (hlabel : labelText? o record = some label) : labelled o [record] = [record] := by
  rw [labelled, List.filter_singleton, hlabel]
  rfl

/-- A record with a label has one column. -/
theorem columns_singleton (hlabel : labelText? o record = some label) :
    Matrix.columns o [record] = [columnOf o record] := by
  rw [columns_eq, labelled_singleton hlabel, List.map_singleton]

/-- The column of a further record with a label follows the others. -/
theorem columns_append_singleton (hlabel : labelText? o record = some label) :
    Matrix.columns o (records ++ [record]) = Matrix.columns o records ++ [columnOf o record] := by
  rw [Matrix.columns, List.filterMap_append, ← Matrix.columns, ← Matrix.columns, columns_singleton hlabel]

/-- The keys of the added entries are the added keys. -/
theorem map_key_addedEntries (o : MatrixOptions) (records : List Tree) (record : Tree) :
    (addedEntries (Matrix.columns o records) (columnOf o record)).map (·.key) = addedKeys o records record := by
  have hkeys : (keyEntries [columnOf o record]).map (·.key) = ((keyTexts o record).map normalized).eraseDups := by
    rw [keyEntries_singleton, map_key_firstOfKeys, columnOf, map_key_entries]
  have hold : ∀ key, key ∈ ((Matrix.columns o records).flatMap (·.entries)).map (·.key) ↔ key ∈ keys o records := by
    intro key
    rw [← map_key_keyEntries, keyEntries, map_key_firstOfKeys, List.mem_eraseDups]
  rw [addedKeys, ← hkeys, List.filter_map, addedEntries]
  congr 1
  refine List.filter_congr fun e _ => ?_
  rw [Function.comp_apply, decide_eq_decide, hold]

/-- An added entry shows its key as the record first writes it. -/
theorem firstWritten_of_mem_addedEntries (hlabel : labelText? o record = some label)
    (h : e ∈ addedEntries (Matrix.columns o records) (columnOf o record)) :
    firstWritten o record e.key = e.display := by
  have hmem : e ∈ keyEntries (Matrix.columns o [record]) := by
    rw [columns_singleton hlabel]
    exact (List.mem_filter.mp h).1
  have htexts : allKeyTexts o [record] = keyTexts o record := by
    rw [allKeyTexts, labelled_singleton hlabel, List.flatMap_singleton]
  rw [firstWritten, ← htexts, find?_allKeyTexts_of_mem_keyEntries hmem, Option.getD_some]

/-- The rows of an added entry are those of its key. -/
theorem keyRows_of_mem_addedEntries (hlabel : labelText? o record = some label)
    (h : e ∈ addedEntries (Matrix.columns o records) (columnOf o record)) :
    keyRows o (Matrix.columns o records ++ [columnOf o record]) e =
      addedRows o (labelled o records).length record e.key := by
  have hnew : e.key ∉ ((Matrix.columns o records).flatMap (·.entries)).map (·.key) := by
    simpa using (List.mem_filter.mp h).2
  have hlength : (Matrix.columns o records).length = (labelled o records).length := by
    rw [columns_eq, List.length_map]
  rw [keyRows, keyRow_append_singleton, keyRow_of_not_mem hnew, width, List.length_append, List.length_singleton,
    valueAt_columnOf, hlength, addedRows, firstWritten_of_mem_addedEntries hlabel h, List.cons_append]

/-- The matrix with a further record is the one without it, with the added columns beside it and the added rows
below. -/
theorem build_append_singleton (h : labelled o records ≠ []) (hlabel : labelText? o record = some label) :
    build o (records ++ [record]) =
      List.zipWith (· ++ ·) (build o records) (addedColumns o (keys o records) label record) ++
        (addedKeys o records record).flatMap (addedRows o (labelled o records).length record) := by
  have hmore : labelled o (records ++ [record]) ≠ [] := by
    rw [labelled, List.filter_append]
    exact List.append_ne_nil_of_left_ne_nil h _
  have hcolumn : (columnOf o record).label = label := by
    rw [columnOf, hlabel, Option.getD_some]
  have hbeside : (keyEntries (Matrix.columns o records)).flatMap
        (fun e => columnsBesideKey o ((columnOf o record).valueAt e.key)) =
      (keys o records).flatMap fun key => columnsBesideKey o (shown o record key) := by
    rw [← map_key_keyEntries, List.flatMap_map]
    simp only [valueAt_columnOf]
  have hbelow : (addedEntries (Matrix.columns o records) (columnOf o record)).flatMap
        (keyRows o (Matrix.columns o records ++ [columnOf o record])) =
      (addedKeys o records record).flatMap (addedRows o (labelled o records).length record) := by
    rw [← map_key_addedEntries, List.flatMap_map]
    exact List.flatMap_congr fun e he => keyRows_of_mem_addedEntries hlabel he
  have hlengths : ∀ e : Entry, (keyRows o (Matrix.columns o records) e).length =
      (columnsBesideKey o ((columnOf o record).valueAt e.key)).length := fun e => by
    rw [length_keyRows, length_columnsBesideKey]
  rw [build_eq_cons hmore, build_eq_cons h, columns_append_singleton hlabel, keyEntries_append_singleton,
    List.flatMap_append, hbelow, headerRow_append_singleton, hcolumn,
    funext (keyRows_append_singleton o (Matrix.columns o records) (columnOf o record)),
    flatMap_zipWith_append hlengths, hbeside, addedColumns, List.zipWith_cons_cons, List.cons_append]

/-- Put beside a matrix, a second one of the same height is found in the columns behind. -/
theorem map_take_drop_zipWith_append {m beside : Matrix} {width : Nat} (hheight : m.length = beside.length)
    (hwidth : ∀ row ∈ m, row.length = width) :
    (List.zipWith (· ++ ·) m beside).map (·.take width) = m ∧
      (List.zipWith (· ++ ·) m beside).map (·.drop width) = beside := by
  induction m generalizing beside with
  | nil =>
    obtain rfl := List.length_eq_zero_iff.mp hheight.symm
    exact ⟨rfl, rfl⟩
  | cons row rest ih =>
    cases beside with
    | nil => cases hheight
    | cons block blocks =>
      obtain ⟨hrow, hrest⟩ := List.forall_mem_cons.mp hwidth
      obtain ⟨htake, hdrop⟩ := ih (Nat.succ.inj hheight) hrest
      rw [List.zipWith_cons_cons, List.map_cons, List.map_cons, htake, hdrop, List.take_left' hrow,
        List.drop_left' hrow]
      exact ⟨rfl, rfl⟩

/-- The added columns are as high as the matrix. -/
theorem length_addedColumns (h : labelled o records ≠ []) (label : String) (record : Tree) :
    (build o records).length = (addedColumns o (keys o records) label record).length := by
  rw [(laidOut_build h).height, addedColumns, List.length_cons,
    length_flatMap_blocks (fun key => length_columnsBesideKey o (shown o record key)), Nat.add_comm]

/-- The matrix of records, at least one of which has a label, is not changed by a further record without a label. By a
further record with a label it is grown: it stays as it is in its rows and columns, the record adds its block of columns
beside it, and below it the rows of the keys that no other record has, in the order in which it has them. -/
theorem build_grows (h : labelled o records ≠ []) (record : Tree) :
    (labelText? o record = none → build o (records ++ [record]) = build o records) ∧
      ∀ label, labelText? o record = some label →
        GrownBy o records record label (build o records) (build o (records ++ [record])) := by
  constructor
  · intro hnone
    have hcolumn : column? o record = none := by
      rw [column?, ← labelText?, hnone]
      rfl
    rw [build, Matrix.columns, List.filterMap_append, List.filterMap_cons_none hcolumn, List.filterMap_nil,
      List.append_nil]
    rfl
  · intro label hlabel
    have hheight := length_addedColumns h label record
    have hlength : (List.zipWith (· ++ ·) (build o records) (addedColumns o (keys o records) label record)).length =
        (build o records).length := by
      rw [List.length_zipWith, ← hheight, Nat.min_self]
    obtain ⟨hkept, hbeside⟩ := map_take_drop_zipWith_append hheight (laidOut_build h).width
    rw [build_append_singleton h hlabel]
    exact
      { kept := by rw [List.take_left' hlength, hkept]
        beside := by rw [List.take_left' hlength, hbeside]
        below := by rw [List.drop_left' hlength] }

/-- A record without a label, and one that has a key in another spelling and twice a key of its own. -/
theorem build_grows_key_twice :
    let entry (key : String) (value : Tree) : Tree := .record [("name", .text key), ("value", value)]
    let records : List Tree :=
      [.record [("benefits", .list [entry "Dental" (.number (.integer 3)), entry "Vision" .null]),
        ("planName", .text "Basic")]]
    let unlabelled : Tree := .record [("benefits", .list [entry "Sight" (.text "lost")])]
    let record : Tree := .record [("benefits", .list [entry "HEARING " (.boolean true), entry " DENTAL" (.text "full"),
      entry "Hearing" (.text "aid")]), ("planName", .text "Plus")]
    let o : MatrixOptions := { columnSpacing := 0, rowSpacing := 1 }
    labelled o records ≠ [] ∧ build o (records ++ [unlabelled]) = build o records ∧
      GrownBy o records record "Plus" (build o records) (build o (records ++ [record])) ∧
      addedKeys o records record = ["hearing"] ∧
      build o (records ++ [record]) =
        [[.text "Benefit", .text "Basic", .text "Plus"],
          [.text "Dental", .number (.integer 3), .text "full"], [blank, blank, blank],
          [.text "Vision", blank, blank], [blank, blank, blank],
          [.text "HEARING ", blank, .text "aid"], [blank, blank, blank]] := by
  intro entry records unlabelled record o
  have hlabelled : labelled o records ≠ [] := by decide +kernel
  exact ⟨hlabelled, (build_grows hlabelled unlabelled).1 (by decide +kernel),
    (build_grows hlabelled record).2 "Plus" (by decide +kernel), by decide +kernel, by decide +kernel⟩

end Matrix

end SheetFill
