import SheetFill.Proofs.Matrix.Values

/-!
# The last entry with a key

A record may give a key several times, in any spellings. Its last entry with the key decides what the cell of the record
and the key shows, and it does so even if it has no value: then the cell is blank, whatever the entries before it hold.

Main statement: every cell of a record and a key shows the last entry with the key. It shows the last value that the
record gives the key exactly if no entry without a value hides one. An entry without a value that is put into a record
blanks the cell of its key, unless an entry with the same key follows, and changes what no other cell shows.
-/

namespace SheetFill

namespace Matrix

/-- The key of an entry in its normal form. -/
def keyOf? (o : MatrixOptions) (entry : Tree) : Option String :=
  (keyText? o entry).map normalized

/-- The value of an entry, unless it is missing or null. -/
def value? (o : MatrixOptions) (entry : Tree) : Option Tree :=
  (entry.field? o.valueField).filter (· ≠ .null)

/-- The entries of a record that have a key, in any spelling. -/
def entriesOfKey (o : MatrixOptions) (record : Tree) (key : String) : List Tree :=
  (entryList o record).filter (keyOf? o · = some key)

/-- What a record shows for a key: the value of the last entry with it. -/
def shown (o : MatrixOptions) (record : Tree) (key : String) : Tree :=
  ((entriesOfKey o record key).getLast?.bind (value? o)).getD blank

/-- The last value that a record gives a key, past entries without a value. -/
def lastValue? (o : MatrixOptions) (record : Tree) (key : String) : Option Tree :=
  ((entriesOfKey o record key).filterMap (value? o)).getLast?

variable {o : MatrixOptions} {records front back : List Tree} {record longer entry : Tree} {key : String}

/-- An entry shows its value, and nothing if it has none. -/
theorem valueOf_eq_getD (o : MatrixOptions) (entry : Tree) : valueOf o entry = (value? o entry).getD blank := by
  cases hvalue : value? o entry with
  | none =>
    refine valueOf_eq_blank fun value hfield => ?_
    by_contra hnull
    exact Option.filter_eq_none_iff.mp hvalue value hfield (decide_eq_true hnull)
  | some value =>
    obtain ⟨hfield, hnull⟩ := Option.filter_eq_some_iff.mp hvalue
    exact valueOf_eq hfield (of_decide_eq_true hnull)

/-- An entry makes one with a key exactly if it has the key. -/
theorem any_entryOf? (o : MatrixOptions) (entry : Tree) (key : String) :
    (entryOf? o entry).any (·.key = key) = decide (keyOf? o entry = some key) := by
  rw [entryOf?, ← keyText?, keyOf?]
  cases keyText? o entry <;> simp

/-- What an entry that has a key is made into shows its value. -/
theorem entryOf?_eq_some (h : keyOf? o entry = some key) :
    ∃ display, entryOf? o entry = some ⟨key, display, valueOf o entry⟩ := by
  obtain ⟨display, hdisplay, rfl⟩ := Option.map_eq_some_iff.mp h
  refine ⟨display, ?_⟩
  rw [entryOf?, ← keyText?, hdisplay, Option.map_some]

/-- The value of a column for a key is what its record shows for it. -/
theorem valueAt_columnOf (o : MatrixOptions) (record : Tree) (key : String) :
    (columnOf o record).valueAt key = shown o record key := by
  have hentries : (Matrix.entries o record).reverse.find? (·.key = key) =
      (entriesOfKey o record key).getLast?.bind (entryOf? o) := by
    rw [Matrix.entries, ← entryList, ← List.filterMap_reverse, List.find?_filterMap, entriesOfKey, List.getLast?_filter]
    simp only [any_entryOf?]
  rw [Column.valueAt, columnOf, hentries, shown]
  cases hlast : (entriesOfKey o record key).getLast? with
  | none => rfl
  | some last =>
    have hkey : keyOf? o last = some key := by
      simpa using (List.mem_filter.mp (List.mem_of_getLast? hlast)).2
    obtain ⟨display, hmade⟩ := entryOf?_eq_some hkey
    rw [Option.bind_some, Option.bind_some, hmade, Option.map_some, Option.getD_some, valueOf_eq_getD]

/-- An entry is the last one with a key unless another one follows it. -/
theorem getLast?_filter_middle {α : Type} (p : α → Bool) (front back : List α) (a : α) :
    ((front ++ a :: back).filter p).getLast? =
      if p a = true ∧ ∀ b ∈ back, p b = false then some a else ((front ++ back).filter p).getLast? := by
  rw [List.filter_append, List.getLast?_append, List.filter_append, List.getLast?_append]
  cases hback : back.filter p with
  | nil =>
    have hnone : ∀ b ∈ back, p b = false := fun b hb => by simpa using List.filter_eq_nil_iff.mp hback b hb
    by_cases ha : p a = true
    · rw [List.filter_cons_of_pos ha, hback, if_pos ⟨ha, hnone⟩]
      rfl
    · rw [List.filter_cons_of_neg ha, hback, if_neg fun h => ha h.1]
  | cons b rest =>
    have hb := List.mem_filter.mp (hback ▸ List.mem_cons_self : b ∈ back.filter p)
    have hnot : ¬ (p a = true ∧ ∀ b ∈ back, p b = false) := fun h => by simp [h.2 b hb.1] at hb
    rw [if_neg hnot, List.filter_cons, hback]
    split
    · rw [List.getLast?_cons_cons]
    · rfl

/-- An entry without a value hides what the entries before it give its key. -/
theorem shown_of_entry_inserted (hrecord : entryList o record = front ++ back)
    (hlonger : entryList o longer = front ++ entry :: back) (hvalue : value? o entry = none) (key : String) :
    shown o longer key =
      if keyOf? o entry = some key ∧ ∀ later ∈ back, keyOf? o later ≠ some key then blank else shown o record key := by
  rw [shown, shown, entriesOfKey, entriesOfKey, hrecord, hlonger, getLast?_filter_middle]
  simp only [decide_eq_true_eq, decide_eq_false_iff_not]
  split
  · rw [Option.bind_some, hvalue, Option.getD_none]
  · rfl

/-- If the last entry with a key has a value, it is the last value of the key. -/
theorem lastValue?_of_getLast? (hlast : (entriesOfKey o record key).getLast? = some entry)
    (hvalue : (value? o entry).isSome) : lastValue? o record key = value? o entry := by
  obtain ⟨value, hvalue⟩ := Option.isSome_iff_exists.mp hvalue
  obtain ⟨others, hothers⟩ := List.getLast?_eq_some_iff.mp hlast
  rw [lastValue?, hothers, List.filterMap_append, List.filterMap_cons_some hvalue, List.filterMap_nil,
    List.getLast?_concat, hvalue]

/-- A record shows the last value that it gives a key, unless the last entry with the key has no value and an earlier
one has. -/
theorem shown_eq_getD_lastValue?_iff (o : MatrixOptions) (record : Tree) (key : String) :
    shown o record key = (lastValue? o record key).getD blank ↔
      ∀ last, (entriesOfKey o record key).getLast? = some last → value? o last = none →
        ∀ value, lastValue? o record key = some value → value = blank := by
  rw [shown]
  cases hlast : (entriesOfKey o record key).getLast? with
  | none =>
    rw [lastValue?, List.getLast?_eq_none_iff.mp hlast]
    simp
  | some last =>
    rw [Option.bind_some]
    cases hvalue : value? o last with
    | none =>
      cases hshown : lastValue? o record key <;> simp [hvalue, eq_comm]
    | some value =>
      rw [lastValue?_of_getLast? hlast (by rw [hvalue, Option.isSome_some]), hvalue]
      simp [hvalue]

/-- The cell of a labelled record and a key shows the last entry of the record with the key, and is blank if that entry
has no value. So it shows the last value that the record gives the key exactly if no value other than the blank one is
hidden by a last entry without one. An entry without a value, wherever it is put into a record, blanks the cell of its
key if no entry with the same key follows; everything else is shown as before. -/
theorem build_last_entry (o : MatrixOptions) (records : List Tree) :
    (∀ i j record key, (labelled o records)[i]? = some record → (keys o records)[j]? = some key →
      (build o records).cell? (o.rowOfKey j) (o.columnOfRecord i) = some (shown o record key)) ∧
    (∀ record key, shown o record key = (lastValue? o record key).getD blank ↔
      ∀ last, (entriesOfKey o record key).getLast? = some last → value? o last = none →
        ∀ value, lastValue? o record key = some value → value = blank) ∧
    ∀ record longer front back entry, entryList o record = front ++ back →
      entryList o longer = front ++ entry :: back → value? o entry = none → ∀ key,
        shown o longer key =
          if keyOf? o entry = some key ∧ ∀ later ∈ back, keyOf? o later ≠ some key then blank
          else shown o record key := by
  refine ⟨fun i j record key hrecord hkey => ?_, shown_eq_getD_lastValue?_iff o, ?_⟩
  · rw [cell?_build hrecord hkey, valueAt_columnOf]
  · intro record longer front back entry hrecord hlonger hvalue key
    exact shown_of_entry_inserted hrecord hlonger hvalue key

/-- An entry without a value, in another spelling of the first of two keys, is put between the entries with these keys:
it blanks the cell of its own key and leaves the other. -/
theorem build_last_entry_hole_inserted :
    let entry (key : String) (value : Tree) : Tree := .record [("name", .text key), ("value", value)]
    let dental : Tree := entry "Dental" (.number (.integer 3))
    let vision : Tree := entry "Vision" (.text "yes")
    let hole : Tree := .record [("name", .text " DENTAL")]
    let record : Tree := .record [("benefits", .list [dental, vision]), ("planName", .text "Basic")]
    let longer : Tree := .record [("benefits", .list [dental, hole, vision]), ("planName", .text "Basic")]
    let o : MatrixOptions := {}
    value? o hole = none ∧ (build o [longer]).cell? 1 2 = some (shown o longer "dental") ∧
      shown o longer "dental" = blank ∧ shown o longer "vision" = shown o record "vision" := by
  intro entry dental vision hole record longer o
  obtain ⟨hcells, -, hinserted⟩ := build_last_entry o [longer]
  have hhole : value? o hole = none := by decide +kernel
  have hshown := hinserted record longer [dental] [vision] hole (by decide +kernel) (by decide +kernel) hhole
  have hlast : keyOf? o hole = some "dental" ∧ ∀ later ∈ [vision], keyOf? o later ≠ some "dental" := by decide +kernel
  have hother : ¬ (keyOf? o hole = some "vision" ∧ ∀ later ∈ [vision], keyOf? o later ≠ some "vision") := by
    decide +kernel
  exact ⟨hhole, hcells 0 0 longer "dental" (by decide +kernel) (by decide +kernel),
    (hshown "dental").trans (if_pos hlast), (hshown "vision").trans (if_neg hother)⟩

/-- A record gives a key a value, and the cell shows it; with a further entry that has the key and null, the cell is
blank, although the value is still the last one that the record gives the key. -/
theorem build_hides_value :
    let entry (key : String) (value : Tree) : Tree := .record [("name", .text key), ("value", value)]
    let dental : Tree := entry "Dental" (.number (.integer 3))
    let record : Tree := .record [("benefits", .list [dental]), ("planName", .text "Basic")]
    let longer : Tree := .record [("benefits", .list [dental, entry "DENTAL " .null]), ("planName", .text "Basic")]
    let o : MatrixOptions := {}
    keys o [longer] = ["dental"] ∧ (build o [record]).cell? 1 2 = some (.number (.integer 3)) ∧
      HasValue o longer "dental" (.number (.integer 3)) ∧ lastValue? o longer "dental" = some (.number (.integer 3)) ∧
      (build o [longer]).cell? 1 2 = some blank := by
  intro entry dental record longer o
  have hvalue : HasValue o longer "dental" (.number (.integer 3)) :=
    ⟨dental, by decide +kernel, by decide +kernel, by decide +kernel, by decide⟩
  exact ⟨by decide +kernel, by decide +kernel, hvalue, by decide +kernel, by decide +kernel⟩

end Matrix

end SheetFill
