import Mathlib.Data.List.Nodup
import SheetFill.Proofs.Matrix.Layout

/-!
# The values of a comparison matrix

In the block of a record and the block of a key stands the value that the record has for the key. Records are told
apart by their position, so that equal labels do no harm, and keys by their normal form, so that a record may spell a
key in another way than the row shows it.

Main statement: if no record has two entries with the same key, the cell of a record and a key holds the value of the
entry as it is, and nothing if there is no entry or the entry has no value.
-/

namespace SheetFill

namespace MatrixOptions

/-- Different records have different columns. -/
theorem columnOfRecord_injective (o : MatrixOptions) : Function.Injective o.columnOfRecord := by
  intro i i' h
  rw [columnOfRecord, columnOfRecord] at h
  have hblocks : i * (1 + o.columnSpacing) = i' * (1 + o.columnSpacing) := by omega
  exact Nat.eq_of_mul_eq_mul_right (by omega) hblocks

end MatrixOptions

namespace Matrix

/-- The record has an entry with the key, in any spelling, and with the value. -/
def HasValue (o : MatrixOptions) (record : Tree) (key : String) (value : Tree) : Prop :=
  ∃ entry ∈ entryList o record, (keyText? o entry).map normalized = some key ∧
    entry.field? o.valueField = some value ∧ value ≠ .null

/-- No two entries of a record have the same key. -/
def KeysDiffer (o : MatrixOptions) (record : Tree) : Prop :=
  ((keyTexts o record).map normalized).Nodup

instance (o : MatrixOptions) (record : Tree) : Decidable (KeysDiffer o record) :=
  inferInstanceAs (Decidable (List.Nodup _))

variable {o : MatrixOptions} {records : List Tree} {record : Tree} {key : String} {value : Tree}

/-- The cell of a record and a key holds the value of the column for the key. -/
theorem cell?_build {i j : Nat} (hrecord : (labelled o records)[i]? = some record)
    (hkey : (keys o records)[j]? = some key) :
    (build o records).cell? (o.rowOfKey j) (o.columnOfRecord i) = some ((columnOf o record).valueAt key) := by
  have hlabelled : labelled o records ≠ [] := List.ne_nil_of_mem (List.mem_of_getElem? hrecord)
  rw [← map_key_keyEntries, List.getElem?_map] at hkey
  obtain ⟨e, he, rfl⟩ := Option.map_eq_some_iff.mp hkey
  rw [cell?, getElem?_build_rowOfKey hlabelled, he, Option.map_some, Option.bind_some, keyRow_eq,
    getElem?_blockRow_columnOfRecord, List.getElem?_map, getElem?_columns hrecord, Option.map_some]

/-- An entry with a value shows it as it is. -/
theorem valueOf_eq {entry : Tree} (h : entry.field? o.valueField = some value) (hvalue : value ≠ .null) :
    valueOf o entry = value := by
  rw [valueOf, h]
  split
  · next hnone => cases hnone
  · next hnull => exact absurd (Option.some.inj hnull) hvalue
  · next hsome => exact (Option.some.inj hsome).symm

/-- An entry without a value shows nothing. -/
theorem valueOf_eq_blank {entry : Tree} (h : ∀ value, entry.field? o.valueField = some value → value = .null) :
    valueOf o entry = blank := by
  rw [valueOf]
  cases hfield : entry.field? o.valueField with
  | none => rfl
  | some value =>
    rw [h value hfield]

/-- The entries of a column are the entries of its record that have a key. -/
theorem mem_entries_iff {e : Entry} :
    e ∈ Matrix.entries o record ↔
      ∃ entry ∈ entryList o record, ∃ display, keyText? o entry = some display ∧
        e = ⟨normalized display, display, valueOf o entry⟩ := by
  rw [Matrix.entries, ← entryList, List.mem_filterMap]
  refine exists_congr fun entry => and_congr_right fun _ => ?_
  rw [entryOf?, ← keyText?, Option.map_eq_some_iff]
  exact exists_congr fun display => and_congr_right fun _ => eq_comm

/-- The keys of a column are the normal forms of the keys of its record. -/
theorem map_key_entries (o : MatrixOptions) (record : Tree) :
    (Matrix.entries o record).map (·.key) = (keyTexts o record).map normalized := by
  rw [← map_display_entries, List.map_map]
  exact List.map_congr_left fun e he => key_eq_of_mem_entries he

/-- If the keys of a record differ, its column has for a key the value of the entry with this key. -/
theorem valueAt_of_hasValue (hdiffer : KeysDiffer o record) (h : HasValue o record key value) :
    (columnOf o record).valueAt key = value := by
  obtain ⟨entry, hentry, hkey, hfield, hvalue⟩ := h
  obtain ⟨display, hdisplay, rfl⟩ := Option.map_eq_some_iff.mp hkey
  let e : Entry := ⟨normalized display, display, valueOf o entry⟩
  have he : e ∈ Matrix.entries o record := mem_entries_iff.mpr ⟨entry, hentry, display, hdisplay, rfl⟩
  have hfound : ((Matrix.entries o record).reverse.find? (·.key = e.key)).isSome :=
    List.find?_isSome.mpr ⟨e, List.mem_reverse.mpr he, by simp⟩
  obtain ⟨last, hlast⟩ := Option.isSome_iff_exists.mp hfound
  have hlastKey : last.key = e.key := by simpa using List.find?_some hlast
  have hlastMem := List.mem_reverse.mp (List.mem_of_find?_eq_some hlast)
  rw [KeysDiffer, ← map_key_entries] at hdiffer
  have hsame : last = e := List.inj_on_of_nodup_map hdiffer hlastMem he hlastKey
  have hvalueAt : (columnOf o record).valueAt e.key = valueOf o entry := by
    rw [Column.valueAt, columnOf, hlast, hsame]
    rfl
  exact hvalueAt.trans (valueOf_eq hfield hvalue)

/-- A column has nothing for a key without a value. -/
theorem valueAt_of_not_hasValue (h : ∀ value, ¬ HasValue o record key value) :
    (columnOf o record).valueAt key = blank := by
  rw [Column.valueAt, columnOf]
  cases hlast : (Matrix.entries o record).reverse.find? (·.key = key) with
  | none => rfl
  | some last =>
    obtain ⟨entry, hentry, display, hdisplay, rfl⟩ :=
      mem_entries_iff.mp (List.mem_reverse.mp (List.mem_of_find?_eq_some hlast))
    obtain rfl : normalized display = key := by simpa using List.find?_some hlast
    refine valueOf_eq_blank fun value hfield => ?_
    by_contra hvalue
    exact h value ⟨entry, hentry, by rw [hdisplay, Option.map_some], hfield, hvalue⟩

/-- If no labelled record has two entries with the same key, the cell in the column of a record and in the row of a key
holds the value of the record's entry with the key as it is, and is blank if there is no such entry or no value in it.
Each labelled record has a column of its own, whatever its label. -/
theorem build_values (hdiffer : ∀ record ∈ labelled o records, KeysDiffer o record) :
    (∀ i j record key, (labelled o records)[i]? = some record → (keys o records)[j]? = some key →
      (∀ value, HasValue o record key value →
        (build o records).cell? (o.rowOfKey j) (o.columnOfRecord i) = some value) ∧
      ((∀ value, ¬ HasValue o record key value) →
        (build o records).cell? (o.rowOfKey j) (o.columnOfRecord i) = some blank)) ∧
    Function.Injective o.columnOfRecord := by
  refine ⟨fun i j record key hrecord hkey => ?_, o.columnOfRecord_injective⟩
  rw [cell?_build hrecord hkey]
  have hkeys := hdiffer record (List.mem_of_getElem? hrecord)
  exact ⟨fun value hvalue => congrArg some (valueAt_of_hasValue hkeys hvalue),
    fun hnone => congrArg some (valueAt_of_not_hasValue hnone)⟩

/-- Two records with the same label, a key in two spellings with a number and a list as its values, and a key without a
value. -/
theorem build_values_equal_labels :
    let entry (key : String) (value : Tree) : Tree := .record [("name", .text key), ("value", value)]
    let first : Tree := .record [("benefits", .list [entry "Dental" (.number (.integer 3)), entry "Vision" .null]),
      ("planName", .text "Basic")]
    let second : Tree := .record [("benefits", .list [entry " DENTAL" (.list [.boolean true])]),
      ("planName", .text "Basic")]
    let o : MatrixOptions := {}
    let m := build o [first, second]
    (∀ record ∈ labelled o [first, second], KeysDiffer o record) ∧ keys o [first, second] = ["dental", "vision"] ∧
      m.cell? 0 2 = some (.text "Basic") ∧ m.cell? 0 4 = some (.text "Basic") ∧
      m.cell? 1 2 = some (.number (.integer 3)) ∧ m.cell? 1 4 = some (.list [.boolean true]) ∧
      m.cell? 2 2 = some blank := by
  intro entry first second o m
  have hdiffer : ∀ record ∈ labelled o [first, second], KeysDiffer o record := by decide +kernel
  have hkeys : keys o [first, second] = ["dental", "vision"] := by decide +kernel
  have hcells := (build_values hdiffer).1
  have hfirst : (labelled o [first, second])[0]? = some first := by decide +kernel
  have hsecond : (labelled o [first, second])[1]? = some second := by decide +kernel
  have hdental : (keys o [first, second])[0]? = some "dental" := by rw [hkeys]; rfl
  have hvision : (keys o [first, second])[1]? = some "vision" := by rw [hkeys]; rfl
  have hnumber : HasValue o first "dental" (.number (.integer 3)) :=
    ⟨entry "Dental" (.number (.integer 3)), by decide +kernel, by decide +kernel, by decide +kernel, by decide⟩
  have hlist : HasValue o second "dental" (.list [.boolean true]) :=
    ⟨entry " DENTAL" (.list [.boolean true]), by decide +kernel, by decide +kernel, by decide +kernel, by decide⟩
  have hnull : ∀ value, ¬ HasValue o first "vision" value := by
    rintro value ⟨e, hmem, hkey, hfield, hvalue⟩
    have honly : ∀ e ∈ entryList o first, (keyText? o e).map normalized = some "vision" →
        e.field? o.valueField = some .null := by decide +kernel
    exact hvalue (Option.some.inj (hfield.symm.trans (honly e hmem hkey)))
  exact ⟨hdiffer, hkeys, by decide +kernel, by decide +kernel,
    (hcells 0 0 first "dental" hfirst hdental).1 _ hnumber, (hcells 1 0 second "dental" hsecond hdental).1 _ hlist,
    (hcells 0 1 first "vision" hfirst hvision).2 hnull⟩

end Matrix

end SheetFill
