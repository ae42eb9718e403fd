import SheetFill.Matrix.Basic
import SheetFill.Proofs.Lists

/-!
# The layout of a comparison matrix

What stands where follows from the records alone: from the records with a label, and from the keys of their entries in
the order in which they are first met. Each record takes a block of columns, of which the last one is for its values,
and each key a block of rows, of which the first one is for the key.

Main statement: the matrix has these blocks and nothing more, with the labels, the keys as they were first written, and
nothing in the cells between. Within a row and within the matrix a place is found as a block and a place in the block.
-/

namespace SheetFill

namespace MatrixOptions

/-- The column for the values of a record, by the position of the record among those with a label. -/
def columnOfRecord (o : MatrixOptions) (i : Nat) : Nat :=
  1 + i * (1 + o.columnSpacing) + o.columnSpacing

/-- The row of a key, by the position of the key among the keys. -/
def rowOfKey (o : MatrixOptions) (j : Nat) : Nat :=
  1 + j * (1 + o.rowSpacing)

end MatrixOptions

namespace Matrix

/-- The cell in a row and a column. -/
def cell? (m : Matrix) (r c : Nat) : Option Tree :=
  m[r]?.bind fun row => row[c]?

/-- The label of a record, if its label field is a scalar. -/
def labelText? (o : MatrixOptions) (record : Tree) : Option String :=
  (record.field? o.labelField).bind Tree.keyText?

/-- The key of an entry as it is written, if its key field is a scalar. -/
def keyText? (o : MatrixOptions) (entry : Tree) : Option String :=
  (entry.field? o.keyField).bind Tree.keyText?

/-- The records with a label. -/
def labelled (o : MatrixOptions) (records : List Tree) : List Tree :=
  records.filter fun record => (labelText? o record).isSome

/-- The list of entries of a record. -/
def entryList (o : MatrixOptions) (record : Tree) : List Tree :=
  ((record.field? o.entriesField).getD .null).items

/-- The keys of a record as they are written. -/
def keyTexts (o : MatrixOptions) (record : Tree) : List String :=
  (entryList o record).filterMap (keyText? o)

/-- The keys of all records with a label as they are written, in the order in which they are met. -/
def allKeyTexts (o : MatrixOptions) (records : List Tree) : List String :=
  (labelled o records).flatMap (keyTexts o)

/-- The distinct keys, in the order in which they are first met. -/
def keys (o : MatrixOptions) (records : List Tree) : List String :=
  ((allKeyTexts o records).map normalized).eraseDups

/-- What a matrix of records shows but for the values: its size, the label of each record, each key as it is first
written, and nothing in the columns in front of the values and in the rows behind the keys. -/
structure LaidOut (o : MatrixOptions) (records : List Tree) (m : Matrix) : Prop where
  height : m.length = 1 + (keys o records).length * (1 + o.rowSpacing)
  width : ∀ row ∈ m, row.length = 1 + (labelled o records).length * (1 + o.columnSpacing)
  corner : m.cell? 0 0 = some (.text o.headerLabel)
  label : ∀ i record, (labelled o records)[i]? = some record →
    ∃ label, labelText? o record = some label ∧ m.cell? 0 (o.columnOfRecord i) = some (.text label)
  display : ∀ j key, (keys o records)[j]? = some key →
    ∃ display, (allKeyTexts o records).find? (normalized · = key) = some display ∧
      m.cell? (o.rowOfKey j) 0 = some (.text display)
  spacingColumn : ∀ r c cell, m.cell? r c = some cell → c ≠ 0 → (∀ i, c ≠ o.columnOfRecord i) → cell = blank
  spacingRow : ∀ r c cell, m.cell? r c = some cell → r ≠ 0 → (∀ j, r ≠ o.rowOfKey j) → cell = blank

section Rows

variable {o : MatrixOptions} {first cell : Tree} {cells : List Tree}

/-- A row with a first cell and a block for each of the other cells. -/
def blockRow (o : MatrixOptions) (first : Tree) (cells : List Tree) : List Tree :=
  first :: cells.flatMap (spaced o)

/-- The header row shows the labels. -/
theorem headerRow_eq (o : MatrixOptions) (columns : List Column) :
    headerRow o columns = blockRow o (.text o.headerLabel) (columns.map fun c => .text c.label) := by
  rw [headerRow, blockRow, List.flatMap_map]

/-- The row of a key shows the values that the columns have for it. -/
theorem keyRow_eq (o : MatrixOptions) (columns : List Column) (e : Entry) :
    keyRow o columns e = blockRow o (.text e.display) (columns.map fun c => c.valueAt e.key) := by
  rw [keyRow, blockRow, List.flatMap_map]

/-- A place behind the first one is in a block, at some distance from its start. -/
theorem exists_eq_block_add (n : Nat) {c : Nat} (hc : c ≠ 0) : ∃ i k, k < 1 + n ∧ c = 1 + i * (1 + n) + k := by
  have hsplit := Nat.div_add_mod' (c - 1) (1 + n)
  exact ⟨(c - 1) / (1 + n), (c - 1) % (1 + n), Nat.mod_lt _ (by omega), by omega⟩

/-- A block is as long as the spacing, with a cell behind it. -/
theorem length_spaced (o : MatrixOptions) (cell : Tree) : (spaced o cell).length = 1 + o.columnSpacing := by
  rw [spaced, List.length_append, List.length_replicate, List.length_singleton, Nat.add_comm]

theorem length_blockRow : (blockRow o first cells).length = 1 + cells.length * (1 + o.columnSpacing) := by
  rw [blockRow, List.length_cons, length_flatMap_blocks (length_spaced o), Nat.add_comm]

/-- A place behind the first cell is a block and a place in the block. -/
theorem getElem?_blockRow (i : Nat) {k : Nat} (hk : k < 1 + o.columnSpacing) :
    (blockRow o first cells)[1 + i * (1 + o.columnSpacing) + k]? =
      cells[i]?.bind fun cell => (spaced o cell)[k]? := by
  have hplace : 1 + i * (1 + o.columnSpacing) + k = i * (1 + o.columnSpacing) + k + 1 := by omega
  rw [blockRow, hplace, List.getElem?_cons_succ, getElem?_flatMap_blocks (length_spaced o) cells i hk]

/-- The last cell of a block is the cell that it is made for. -/
theorem getElem?_blockRow_columnOfRecord (i : Nat) :
    (blockRow o first cells)[o.columnOfRecord i]? = cells[i]? := by
  rw [MatrixOptions.columnOfRecord, getElem?_blockRow i (by omega)]
  cases cells[i]? <;> simp [spaced]

/-- All cells of a block but the last are blank. -/
theorem eq_blank_of_getElem?_blockRow {c : Nat} (h : (blockRow o first cells)[c]? = some cell) (hc : c ≠ 0)
    (hspacing : ∀ i, c ≠ o.columnOfRecord i) : cell = blank := by
  obtain ⟨i, k, hbound, rfl⟩ := exists_eq_block_add o.columnSpacing hc
  have hnot := hspacing i
  rw [MatrixOptions.columnOfRecord] at hnot
  have hfront : k < o.columnSpacing := by omega
  rw [getElem?_blockRow i hbound] at h
  obtain ⟨value, -, hvalue⟩ := Option.bind_eq_some_iff.mp h
  rw [spaced, List.getElem?_append_left (by rwa [List.length_replicate]), List.getElem?_replicate, if_pos hfront] at hvalue
  exact (Option.some.inj hvalue).symm

/-- Blocks of blank cells are blank. -/
theorem flatMap_spaced_blank {α : Type} (o : MatrixOptions) (l : List α) :
    l.flatMap (fun _ => spaced o blank) = List.replicate (l.length * (1 + o.columnSpacing)) blank := by
  induction l with
  | nil => rw [List.flatMap_nil, List.length_nil, Nat.zero_mul, List.replicate_zero]
  | cons a rest ih =>
    rw [List.flatMap_cons, ih, spaced, ← List.replicate_succ', List.replicate_append_replicate, List.length_cons,
      Nat.succ_mul, Nat.add_comm, Nat.add_comm o.columnSpacing]

/-- A row of spacing is a row of blank cells. -/
theorem replicate_width_eq (o : MatrixOptions) (columns : List Column) :
    List.replicate (width o columns) blank = blockRow o blank (columns.map fun _ => blank) := by
  rw [blockRow, List.flatMap_map, flatMap_spaced_blank, width, Nat.add_comm, List.replicate_succ]

end Rows

section Keys

variable {o : MatrixOptions} {records : List Tree} {entries : List Entry} {e : Entry}

/-- The column of a record with a label. -/
def columnOf (o : MatrixOptions) (record : Tree) : Column :=
  ⟨(labelText? o record).getD "", Matrix.entries o record⟩

/-- The columns are those of the records with a label. -/
theorem columns_eq (o : MatrixOptions) (records : List Tree) :
    columns o records = (labelled o records).map (columnOf o) := by
  induction records with
  | nil => rfl
  | cons record rest ih =>
    rw [columns] at ih ⊢
    cases hlabel : labelText? o record with
    | none =>
      have hcolumn : column? o record = none := by
        rw [column?, ← labelText?, hlabel]
        rfl
      rw [List.filterMap_cons_none hcolumn, ih, labelled, labelled, List.filter_cons_of_neg (by simp [hlabel])]
    | some label =>
      have hcolumn : column? o record = some (columnOf o record) := by
        rw [column?, ← labelText?, hlabel, columnOf, hlabel]
        rfl
      rw [List.filterMap_cons_some hcolumn, ih, labelled, labelled, List.filter_cons_of_pos (by simp [hlabel]),
        List.map_cons]

/-- The entries that first show each key have the distinct keys. -/
theorem map_key_firstOfKeys (entries : List Entry) :
    (firstOfKeys entries).map (·.key) = (entries.map (·.key)).eraseDups := by
  induction entries with
  | nil => rfl
  | cons e rest ih =>
    have hother : (fun other : Entry => decide (other.key ≠ e.key)) = (fun key => !key == e.key) ∘ (·.key) := by
      funext other
      simp [beq_eq_decide]
    rw [firstOfKeys, hother, List.map_cons, List.map_cons, List.eraseDups_cons, eraseDups_filter, ← ih, List.filter_map]

/-- Each of them is the first entry with its key. -/
theorem find?_of_mem_firstOfKeys (h : e ∈ firstOfKeys entries) : entries.find? (·.key = e.key) = some e := by
  induction entries with
  | nil => cases h
  | cons first rest ih =>
    rw [firstOfKeys] at h
    rcases List.mem_cons.mp h with rfl | hlater
    · exact List.find?_cons_of_pos (by simp)
    · obtain ⟨hrest, hkey⟩ := List.mem_filter.mp hlater
      rw [List.find?_cons_of_neg (by simpa using Ne.symm (of_decide_eq_true hkey))]
      exact ih hrest

/-- An entry of a record has the normal form of its written key. -/
theorem key_eq_of_mem_entries {record : Tree} (h : e ∈ Matrix.entries o record) : e.key = normalized e.display := by
  obtain ⟨entry, -, hentry⟩ := List.mem_filterMap.mp h
  obtain ⟨display, -, rfl⟩ := Option.map_eq_some_iff.mp hentry
  rfl

/-- The entries of a record show its keys as they are written. -/
theorem map_display_entries (o : MatrixOptions) (record : Tree) :
    (Matrix.entries o record).map (·.display) = keyTexts o record := by
  rw [Matrix.entries, List.map_filterMap]
  refine List.filterMap_congr fun entry _ => ?_
  rw [entryOf?, ← keyText?, Option.map_map]
  exact Option.map_id'

/-- The entries of all records with a label, in the order in which they are met. -/
def allEntries (o : MatrixOptions) (records : List Tree) : List Entry :=
  (labelled o records).flatMap (Matrix.entries o)

theorem keyEntries_eq (o : MatrixOptions) (records : List Tree) :
    keyEntries (columns o records) = firstOfKeys (allEntries o records) := by
  rw [keyEntries, columns_eq, List.flatMap_map]
  rfl

theorem map_display_allEntries (o : MatrixOptions) (records : List Tree) :
    (allEntries o records).map (·.display) = allKeyTexts o records := by
  rw [allEntries, List.map_flatMap, allKeyTexts]
  simp only [map_display_entries]

theorem key_eq_of_mem_allEntries (h : e ∈ allEntries o records) : e.key = normalized e.display := by
  obtain ⟨record, -, hentry⟩ := List.mem_flatMap.mp h
  exact key_eq_of_mem_entries hentry

/-- The rows are those of the distinct keys. -/
theorem map_key_keyEntries (o : MatrixOptions) (records : List Tree) :
    (keyEntries (columns o records)).map (·.key) = keys o records := by
  have hkeys : (allEntries o records).map (·.key) = (allEntries o records).map (normalized ∘ (·.display)) :=
    List.map_congr_left fun e he => key_eq_of_mem_allEntries he
  rw [keyEntries_eq, map_key_firstOfKeys, hkeys, keys, ← map_display_allEntries, List.map_map]

/-- A row shows its key as it is first written. -/
theorem find?_allKeyTexts_of_mem_keyEntries (h : e ∈ keyEntries (columns o records)) :
    (allKeyTexts o records).find? (normalized · = e.key) = some e.display := by
  rw [keyEntries_eq] at h
  have hsame : (allEntries o records).filter ((fun text => decide (normalized text = e.key)) ∘ (·.display)) =
      (allEntries o records).filter (·.key = e.key) :=
    List.filter_congr fun other hother => by rw [Function.comp_apply, ← key_eq_of_mem_allEntries hother]
  rw [← map_display_allEntries, List.find?_map, ← List.head?_filter, hsame, List.head?_filter,
    find?_of_mem_firstOfKeys h, Option.map_some]

end Keys

section Build

variable {o : MatrixOptions} {records : List Tree}

/-- The rows of a key are its row and the spacing. -/
theorem length_keyRows (o : MatrixOptions) (columns : List Column) (e : Entry) :
    (keyRows o columns e).length = 1 + o.rowSpacing := by
  rw [keyRows, List.length_cons, List.length_replicate, Nat.add_comm]

/-- The matrix of records with labels has a header row, and a block of rows for each key. -/
theorem build_eq_cons (h : labelled o records ≠ []) :
    build o records = headerRow o (columns o records) ::
      (keyEntries (columns o records)).flatMap (keyRows o (columns o records)) := by
  rw [build, ofColumns, if_neg]
  rw [columns_eq]
  exact mt List.map_eq_nil_iff.mp h

/-- A place below the header is a block and a place in the block. -/
theorem getElem?_build (h : labelled o records ≠ []) (j : Nat) {k : Nat} (hk : k < 1 + o.rowSpacing) :
    (build o records)[o.rowOfKey j + k]? =
      (keyEntries (columns o records))[j]?.bind fun e => (keyRows o (columns o records) e)[k]? := by
  have hplace : o.rowOfKey j + k = j * (1 + o.rowSpacing) + k + 1 := by
    rw [MatrixOptions.rowOfKey]
    omega
  rw [build_eq_cons h, hplace, List.getElem?_cons_succ, getElem?_flatMap_blocks (length_keyRows o _) _ j hk]

/-- The row of a key. -/
theorem getElem?_build_rowOfKey (h : labelled o records ≠ []) (j : Nat) :
    (build o records)[o.rowOfKey j]? =
      (keyEntries (columns o records))[j]?.map (keyRow o (columns o records)) := by
  have hrow := getElem?_build h j (by omega : 0 < 1 + o.rowSpacing)
  rw [Nat.add_zero] at hrow
  rw [hrow]
  cases (keyEntries (columns o records))[j]? <;> rfl

/-- A row of spacing stands behind the row of a key. -/
theorem getElem?_build_rowOfKey_add (h : labelled o records ≠ []) (j : Nat) {k : Nat} (hk : k < o.rowSpacing)
    {row : List Tree} (hrow : (build o records)[o.rowOfKey j + (k + 1)]? = some row) :
    row = List.replicate (width o (columns o records)) blank := by
  rw [getElem?_build h j (by omega)] at hrow
  obtain ⟨e, -, hrow⟩ := Option.bind_eq_some_iff.mp hrow
  rw [keyRows, List.getElem?_cons_succ, List.getElem?_replicate, if_pos hk] at hrow
  exact (Option.some.inj hrow).symm

/-- Every row has a first cell and a block for each record with a label. -/
theorem exists_blockRow_of_mem_build (h : labelled o records ≠ []) {row : List Tree} (hrow : row ∈ build o records) :
    ∃ first, ∃ f : Column → Tree, row = blockRow o first ((columns o records).map f) := by
  rw [build_eq_cons h] at hrow
  rcases List.mem_cons.mp hrow with rfl | hrow
  · exact ⟨_, _, headerRow_eq o _⟩
  · obtain ⟨e, -, hrow⟩ := List.mem_flatMap.mp hrow
    rcases List.mem_cons.mp hrow with rfl | hrow
    · exact ⟨_, _, keyRow_eq o _ e⟩
    · rw [List.eq_of_mem_replicate hrow, replicate_width_eq]
      exact ⟨_, _, rfl⟩

/-- A record with a label has its column in the same position. -/
theorem getElem?_columns {i : Nat} {record : Tree} (h : (labelled o records)[i]? = some record) :
    (columns o records)[i]? = some (columnOf o record) := by
  rw [columns_eq, List.getElem?_map, h, Option.map_some]

/-- The matrix of records with labels is laid out by their blocks. -/
theorem laidOut_build (h : labelled o records ≠ []) : LaidOut o records (build o records) where
  height := by
    rw [build_eq_cons h, List.length_cons, length_flatMap_blocks (length_keyRows o _), ← map_key_keyEntries,
      List.length_map, Nat.add_comm]
  width row hrow := by
    obtain ⟨first, f, rfl⟩ := exists_blockRow_of_mem_build h hrow
    rw [length_blockRow, List.length_map, columns_eq, List.length_map]
  corner := by
    rw [build_eq_cons h]
    rfl
  label i record hrecord := by
    have hlabelled := (List.mem_filter.mp (List.mem_of_getElem? hrecord)).2
    obtain ⟨label, hlabel⟩ := Option.isSome_iff_exists.mp hlabelled
    refine ⟨label, hlabel, ?_⟩
    rw [build_eq_cons h, cell?, List.getElem?_cons_zero, Option.bind_some, headerRow_eq,
      getElem?_blockRow_columnOfRecord, List.getElem?_map, getElem?_columns hrecord, columnOf, hlabel]
    rfl
  display j key hkey := by
    rw [← map_key_keyEntries, List.getElem?_map] at hkey
    obtain ⟨e, he, rfl⟩ := Option.map_eq_some_iff.mp hkey
    refine ⟨e.display, find?_allKeyTexts_of_mem_keyEntries (List.mem_of_getElem? he), ?_⟩
    rw [cell?, getElem?_build_rowOfKey h, he]
    rfl
  spacingColumn r c cell hcell hc hspacing := by
    obtain ⟨row, hrow, hcell⟩ := Option.bind_eq_some_iff.mp hcell
    obtain ⟨first, f, rfl⟩ := exists_blockRow_of_mem_build h (List.mem_of_getElem? hrow)
    exact eq_blank_of_getElem?_blockRow hcell hc hspacing
  spacingRow r c cell hcell hr hspacing := by
    obtain ⟨row, hrow, hplaced⟩ := Option.bind_eq_some_iff.mp hcell
    obtain ⟨j, k, hbound, rfl⟩ := exists_eq_block_add o.rowSpacing hr
    obtain ⟨k, rfl⟩ : ∃ behind, k = behind + 1 :=
      Nat.exists_eq_succ_of_ne_zero fun hzero => hspacing j (by rw [hzero, Nat.add_zero, MatrixOptions.rowOfKey])
    rw [getElem?_build_rowOfKey_add h j (by omega) hrow] at hplaced
    exact List.eq_of_mem_replicate (List.mem_of_getElem? hplaced)

/-- Records without a label make no matrix. -/
theorem build_eq_nil (h : labelled o records = []) : build o records = [] := by
  rw [build, ofColumns, columns_eq, h]
  rfl

/-- A matrix without its first column has the cells of all other columns. -/
theorem cell?_valuesOnly (m : Matrix) (r c : Nat) : m.valuesOnly.cell? r c = m.cell? r (c + 1) := by
  rw [cell?, cell?, valuesOnly, List.getElem?_map]
  cases m[r]? with
  | none => rfl
  | some row => rw [Option.map_some, Option.bind_some, Option.bind_some, List.getElem?_drop, Nat.add_comm]

end Build

/-- Without a labelled record there is no matrix. Otherwise it has a header row, a block of columns for each labelled
record and a block of rows for each distinct key, with the labels and the keys as they are first written, and nothing
in the spacing. The values alone are the same rows without their first cells. -/
theorem build_layout (o : MatrixOptions) (records : List Tree) :
    (labelled o records = [] → build o records = []) ∧
      (labelled o records ≠ [] → LaidOut o records (build o records)) ∧
      (build o records).valuesOnly.length = (build o records).length ∧
      ∀ r c, (build o records).valuesOnly.cell? r c = (build o records).cell? r (c + 1) :=
  ⟨build_eq_nil, laidOut_build, List.length_map .., cell?_valuesOnly _⟩

/-- A record without a label, a label that is a number, a key in two spellings, and an entry without a key. -/
theorem build_layout_two_spellings :
    let entry (key : String) (value : Tree) : Tree := .record [("name", .text key), ("value", value)]
    let records : List Tree :=
      [.record [("benefits", .list [entry "Hearing" .null])],
        .record [("benefits", .list [entry "Dental Care " (.boolean true), .record [("value", .text "lost")]]),
          ("planName", .text "Basic")],
        .record [("benefits", .list [entry "Vision" (.text "yes"), entry " DENTAL care" (.text "no")]),
          ("planName", .number (.integer 2))]]
    let o : MatrixOptions := { rowSpacing := 1 }
    labelled o records ≠ [] ∧ keys o records = ["dental care", "vision"] ∧ LaidOut o records (build o records) ∧
      build o records =
        [[.text "Benefit", blank, .text "Basic", blank, .text "2"],
          [.text "Dental Care ", blank, .boolean true, blank, .text "no"], List.replicate 5 blank,
          [.text "Vision", blank, blank, blank, .text "yes"], List.replicate 5 blank] := by
  intro entry records o
  have hlabelled : labelled o records ≠ [] := by decide +kernel
  exact ⟨hlabelled, by decide +kernel, (build_layout o records).2.1 hlabelled, by decide +kernel⟩

end Matrix

end SheetFill
