import Mathlib.Data.List.Nodup
import SheetFill.Group.Numbered
import SheetFill.Proofs.Group.FaultyFields
import SheetFill.Proofs.Lists
import SheetFill.Proofs.Text.Digits
import SheetFill.Proofs.Text.TextMap

/-!
# Numbered fields have names of their own

The name of a numbered field is put together without anything that marks where its number starts and ends. What stands
around all names alike, the text in front and the text behind, is the same for all of them and cancels. What is left is
a numeral next to a key and its separator. If these do not continue the numeral with a digit, the run of digits is the
number, and what is beside it the key.

Main statement: under that condition no two numbered fields share a name, so that the fields of all items are kept, in
order, each with the text of its item.
-/

namespace SheetFill

open Text (isDigit)

namespace Text

/-- Numbers are written in different ways. -/
theorem ofNat_inj {m n : Nat} : ofNat m = ofNat n ↔ m = n := by
  constructor
  · intro h
    rw [← digitsValue_ofNat m, h, digitsValue_ofNat]
  · rintro rfl
    rfl

/-- An integer that is not negative is written without a sign. -/
theorem ofInt_of_nonneg {i : Int} (h : 0 ≤ i) : ofInt i = ofNat i.natAbs :=
  if_neg (Int.not_lt.mpr h)

/-- A numeral in front of other characters than digits is found again. -/
theorem ofNat_append_inj {m n : Nat} {rest rest' : List Char} (hrest : ∀ c ∈ rest.head?, isDigit c = false)
    (hrest' : ∀ c ∈ rest'.head?, isDigit c = false) (h : ofNat m ++ rest = ofNat n ++ rest') : m = n ∧ rest = rest' := by
  obtain ⟨hdigits, hsame⟩ := run_append_inj (List.all_eq_true.mp (all_isDigit_ofNat m)) hrest
    (List.all_eq_true.mp (all_isDigit_ofNat n)) hrest' h
  exact ⟨ofNat_inj.mp hdigits, hsame⟩

/-- A numeral behind other characters than digits is found again. -/
theorem append_ofNat_inj {m n : Nat} {front front' : List Char} (hfront : ∀ c ∈ front.getLast?, isDigit c = false)
    (hfront' : ∀ c ∈ front'.getLast?, isDigit c = false) (h : front ++ ofNat m = front' ++ ofNat n) :
    m = n ∧ front = front' := by
  have hdigits : ∀ n, ∀ c ∈ (ofNat n).reverse, isDigit c = true := fun n c hc =>
    List.all_eq_true.mp (all_isDigit_ofNat n) c (List.mem_reverse.mp hc)
  have hreverse := congrArg List.reverse h
  rw [List.reverse_append, List.reverse_append] at hreverse
  obtain ⟨hrun, hrest⟩ := run_append_inj (hdigits m) (by rwa [List.head?_reverse]) (hdigits n)
    (by rwa [List.head?_reverse]) hreverse
  exact ⟨ofNat_inj.mp (List.reverse_inj.mp hrun), List.reverse_inj.mp hrest⟩

end Text

namespace RepeatingGroup

/-- No key continues the number of a field: what stands directly behind the number, or directly in front of it, does not
start or end with a digit. -/
def NumberStandsApart (group : RepeatingGroup) : Prop :=
  match group.indexPosition with
  | .beforeField => ∀ e ∈ group.fields.entries, ∀ c ∈ (group.indexSeparator.getD "" ++ e.1).toList.head?,
    isDigit c = false
  | .afterField => ∀ e ∈ group.fields.entries, ∀ c ∈ (e.1 ++ group.indexSeparator.getD "").toList.getLast?,
    isDigit c = false

/-- The fields of a group whose paths can be read. -/
def readable (group : RepeatingGroup) (dialect : Dialect) : List (String × String) :=
  group.fields.entries.filter fun e => dialect.reads e.2

/-- The text that a path selects in an item, or nothing if the path cannot be read. -/
def fieldText (dialect : Dialect) (item : Tree) (path : String) : String :=
  match dialect.evaluate item path with
  | .ok selection => selection.text
  | .error _ => ""

variable {group : RepeatingGroup} {dialect : Dialect}

/-- Different numbers or keys make different names. -/
theorem flatName_inj (hapart : group.NumberStandsApart) {i j : Int} (hi : 0 ≤ i) (hj : 0 ≤ j)
    {e other : String × String} (he : e ∈ group.fields.entries) (hother : other ∈ group.fields.entries)
    (h : group.flatName i e.1 = group.flatName j other.1) : i = j ∧ e.1 = other.1 := by
  unfold NumberStandsApart at hapart
  unfold flatName at h
  cases hposition : group.indexPosition with
  | beforeField =>
    simp only [hposition] at hapart h
    have hchars := congrArg String.toList h
    simp only [String.toList_append, Text.intText, String.toList_ofList, Text.ofInt_of_nonneg hi,
      Text.ofInt_of_nonneg hj, List.append_assoc, List.append_cancel_left_eq] at hchars
    simp only [← List.append_assoc, List.append_cancel_right_eq] at hchars
    rw [List.append_assoc, List.append_assoc] at hchars
    have hfirst := hapart e he
    have hsecond := hapart other hother
    rw [String.toList_append] at hfirst hsecond
    obtain ⟨hnumber, hrest⟩ := Text.ofNat_append_inj hfirst hsecond hchars
    exact ⟨by omega, String.toList_inj.mp (List.append_cancel_left hrest)⟩
  | afterField =>
    simp only [hposition] at hapart h
    have hchars := congrArg String.toList h
    simp only [String.toList_append, Text.intText, String.toList_ofList, Text.ofInt_of_nonneg hi,
      Text.ofInt_of_nonneg hj, List.append_assoc, List.append_cancel_left_eq] at hchars
    simp only [← List.append_assoc, List.append_cancel_right_eq] at hchars
    have hfirst := hapart e he
    have hsecond := hapart other hother
    rw [String.toList_append] at hfirst hsecond
    obtain ⟨hnumber, hrest⟩ := Text.append_ofNat_inj hfirst hsecond hchars
    exact ⟨by omega, String.toList_inj.mp (List.append_cancel_right hrest)⟩

/-- The fields of an item are those that can be read, with their texts. -/
theorem itemFields_eq (group : RepeatingGroup) (dialect : Dialect) (item : Tree) (index : Int) :
    group.itemFields dialect item index =
      (group.readable dialect).map fun e => (group.flatName index e.1, fieldText dialect item e.2) := by
  rw [itemFields, readable, ← List.filterMap_eq_map, List.filterMap_filter]
  refine List.filterMap_congr fun e _ => ?_
  obtain ⟨key, path⟩ := e
  simp only [fieldText, ← dialect.isOk_evaluate item]
  cases hselection : dialect.evaluate item path <;> simp [hselection, Except.isOk, Except.toBool]

/-- All names of numbered fields differ. -/
theorem nodup_flatEntries (hstart : 0 ≤ group.startIndex) (hapart : group.NumberStandsApart) (dialect : Dialect)
    (items : List Tree) : ((group.flatEntries dialect items).map Prod.fst).Nodup := by
  have hfields : (group.readable dialect).Nodup := (group.fields.nodup.of_map Prod.fst).filter _
  have hmem : ∀ e ∈ group.readable dialect, e ∈ group.fields.entries := fun e he => (List.mem_filter.mp he).1
  have hindex : ∀ item ∈ group.numberedItems items, 0 ≤ item.2 := by
    intro item hitem
    obtain ⟨⟨tree, i⟩, -, rfl⟩ := List.mem_map.mp hitem
    simp only
    omega
  have hnumbers : ((group.numberedItems items).map Prod.snd).Nodup := by
    have hsnd : (group.numberedItems items).map Prod.snd =
        (List.range' 0 (items.take (group.itemCount items.length)).length).map fun i : Nat => group.startIndex + i := by
      rw [numberedItems, List.map_map, ← List.zipIdx_map_snd 0, List.map_map]
      rfl
    rw [hsnd]
    exact List.Nodup.map (fun _ _ h => Int.ofNat_inj.mp (Int.add_left_cancel h)) List.nodup_range'
  rw [flatEntries, List.map_flatMap, List.nodup_flatMap]
  simp only [itemFields_eq, List.map_map]
  constructor
  · -- Within one item the keys differ.
    intro item hitem
    refine List.Nodup.map_on (fun e he other hother h => ?_) hfields
    have hkey := (flatName_inj hapart (hindex item hitem) (hindex item hitem) (hmem e he) (hmem other hother) h).2
    exact List.inj_on_of_nodup_map group.fields.nodup (hmem e he) (hmem other hother) hkey
  · -- Two items have different numbers.
    refine (List.pairwise_map.mp hnumbers).imp_of_mem fun {first second} hfirst hsecond hne => ?_
    intro name hname hsame
    obtain ⟨e, he, rfl⟩ := List.mem_map.mp hname
    obtain ⟨other, hother, heq⟩ := List.mem_map.mp hsame
    exact hne (flatName_inj hapart (hindex second hsecond) (hindex first hfirst) (hmem other hother) (hmem e he)
      heq).1.symm

/-- The numbered fields are kept as they come. -/
theorem entries_expandFlat (hstart : 0 ≤ group.startIndex) (hapart : group.NumberStandsApart) (dialect : Dialect)
    (items : List Tree) : (group.expandFlat dialect items).entries = group.flatEntries dialect items :=
  TextMap.entries_insertAll (nodup_flatEntries hstart hapart dialect items)

/-- There are as many numbered items as are repeated. -/
theorem length_numberedItems (group : RepeatingGroup) (items : List Tree) :
    (group.numberedItems items).length = group.itemCount items.length := by
  rw [numberedItems, List.length_map, List.length_zipIdx, List.length_take_of_le (group.itemCount_le _)]

/-- The number of an item is its place. -/
theorem getElem?_numberedItems {items : List Tree} {i : Nat} (hi : i < group.itemCount items.length) {item : Tree}
    (hitem : items[i]? = some item) : (group.numberedItems items)[i]? = some (item, group.startIndex + i) := by
  rw [numberedItems, List.getElem?_map, List.getElem?_zipIdx, List.getElem?_take, if_pos hi, hitem]
  simp

/-- Numbered fields lose no item. If no key continues the number of a field, every item has one field for each path that
can be read, the items in order and the fields of an item in the order of the group; it has the name of its item's number
and its key and the text that the path selects in the item. No two items and keys share a name. -/
theorem expandFlat_losesNothing (hstart : 0 ≤ group.startIndex) (hapart : group.NumberStandsApart) (dialect : Dialect)
    (items : List Tree) :
    (group.expandFlat dialect items).entries.length =
        group.itemCount items.length * (group.readable dialect).length ∧
      (∀ i < group.itemCount items.length, ∀ k < (group.readable dialect).length,
        ∃ item e selection, items[i]? = some item ∧ (group.readable dialect)[k]? = some e ∧
          dialect.evaluate item e.2 = .ok selection ∧
          (group.expandFlat dialect items).entries[i * (group.readable dialect).length + k]? =
            some (group.flatName (group.startIndex + i) e.1, selection.text)) ∧
      ∀ (i j : Nat), ∀ e ∈ group.fields.entries, ∀ other ∈ group.fields.entries,
        group.flatName (group.startIndex + i) e.1 = group.flatName (group.startIndex + j) other.1 →
          i = j ∧ e = other := by
  have hblock : ∀ item : Tree × Int,
      (group.itemFields dialect item.1 item.2).length = (group.readable dialect).length := fun item => by
    rw [itemFields_eq, List.length_map]
  rw [entries_expandFlat hstart hapart]
  refine ⟨?_, fun i hi k hk => ?_, fun i j e he other hother h => ?_⟩
  · rw [flatEntries, length_flatMap_blocks hblock, length_numberedItems]
  · have hbound : i < items.length := Nat.lt_of_lt_of_le hi (group.itemCount_le _)
    have hitem : items[i]? = some items[i] := List.getElem?_eq_getElem hbound
    have hfield : (group.readable dialect)[k]? = some (group.readable dialect)[k] := List.getElem?_eq_getElem hk
    have hreads : dialect.reads (group.readable dialect)[k].2 = true :=
      (List.mem_filter.mp (List.getElem_mem hk)).2
    rw [← dialect.isOk_evaluate items[i]] at hreads
    cases hselection : dialect.evaluate items[i] (group.readable dialect)[k].2 with
    | error fault =>
      rw [hselection] at hreads
      cases hreads
    | ok selection =>
      refine ⟨items[i], (group.readable dialect)[k], selection, hitem, hfield, hselection, ?_⟩
      rw [flatEntries, getElem?_flatMap_blocks hblock _ _ hk, getElem?_numberedItems hi hitem, Option.bind_some,
        itemFields_eq, List.getElem?_map, hfield, Option.map_some, fieldText, hselection]
  · obtain ⟨hnumber, hkey⟩ := flatName_inj hapart (by omega) (by omega) he hother h
    exact ⟨by omega, List.inj_on_of_nodup_map group.fields.nodup he hother hkey⟩

/-- Texts around the name that start and end with digits, an empty key, and numbers of one and of two digits. -/
theorem expandFlat_losesNothing_digits_around :
    let group : RepeatingGroup :=
      { namePrefix := some "1", nameSuffix := some "0", startIndex := 9, maxItems := some 2
        fields := ⟨[("", "a"), ("x0", "b"), ("y", "b..c")], by decide⟩ }
    let items : List Tree := [.record [("a", .text "p"), ("b", .text "q")], .record [("b", .text "r")], .null]
    0 ≤ group.startIndex ∧ group.NumberStandsApart ∧
      (group.expandFlat .dotted items).entries.length = 2 * 2 ∧
      (group.expandFlat .dotted items).entries = [("190", "p"), ("19x00", "q"), ("1100", ""), ("110x00", "r")] ∧
      ∀ (i j : Nat), ∀ e ∈ group.fields.entries, ∀ other ∈ group.fields.entries,
        group.flatName (group.startIndex + i) e.1 = group.flatName (group.startIndex + j) other.1 → i = j ∧ e = other := by
  intro group items
  have hapart : group.NumberStandsApart := by
    have hheads : ∀ e ∈ group.fields.entries,
        ((group.indexSeparator.getD "" ++ e.1).toList.head?.all fun c => !isDigit c) = true := by decide +kernel
    intro e he c hc
    have hhead := hheads e he
    rw [hc] at hhead
    simpa using hhead
  obtain ⟨hlength, -, hnames⟩ := group.expandFlat_losesNothing (by decide) hapart .dotted items
  exact ⟨by decide, hapart, hlength, by decide +kernel, hnames⟩

end RepeatingGroup

end SheetFill
