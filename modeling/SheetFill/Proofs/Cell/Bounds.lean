import SheetFill.Cell.Address

/-!
# What is read lies on a sheet

A reader of references refuses a row or a column that no sheet has. Every coordinate, corner of a range and column of a
table that comes out of a text is therefore a place of a sheet.
-/

namespace SheetFill

/-- The coordinate is a place of a sheet. -/
def Coordinate.OnSheet (c : Coordinate) : Prop :=
  c.row ≤ maxRow ∧ c.col ≤ maxColumn

instance (c : Coordinate) : Decidable c.OnSheet :=
  inferInstanceAs (Decidable (_ ∧ _))

namespace Column

/-- Letters name a column of a sheet, or none. -/
theorem le_of_ofLetters? {cs : List Char} {col : Nat} (h : ofLetters? cs = some col) : col ≤ maxColumn := by
  unfold ofLetters? at h
  split at h
  · cases h
  · exact of_decide_eq_true (Option.filter_eq_some_iff.mp h).2

/-- A key names a column of a sheet, or none. -/
theorem le_of_ofKey {key : String} {col : Nat} (h : ofKey key = .ok col) : col ≤ maxColumn := by
  have hkey : ofKey? (Text.trim key.toList) = some col := by
    unfold ofKey at h
    dsimp only at h
    split at h
    · next hfound =>
      cases h
      exact hfound
    · cases h
  unfold ofKey? at hkey
  split at hkey
  · obtain ⟨n, hn, rfl⟩ := Option.map_eq_some_iff.mp hkey
    obtain ⟨-, hbound⟩ := of_decide_eq_true (Option.filter_eq_some_iff.mp hn).2
    omega
  · exact le_of_ofLetters? hkey

end Column

namespace Coordinate

/-- What is read without blanks and dollar signs is a place of a sheet. -/
theorem onSheet_of_read {cs : List Char} {c : Coordinate} (h : read cs = .ok c) : c.OnSheet := by
  unfold read at h
  dsimp only at h
  split at h
  · cases h
  split at h
  · cases h
  split at h
  · cases h
  · next col hcol =>
    split at h
    · cases h
    · cases h
    · split at h
      · cases h
      · next hrow =>
        cases h
        exact ⟨Nat.le_of_not_lt hrow, Column.le_of_ofLetters? hcol⟩

/-- A reference that is read is a place of a sheet. -/
theorem onSheet_of_parseChars {cs : List Char} {c : Coordinate} (h : parseChars cs = .ok c) : c.OnSheet := by
  unfold parseChars at h
  dsimp only at h
  split at h
  · next hread =>
    cases h
    exact onSheet_of_read hread
  · cases h

end Coordinate

namespace CellRange

/-- Every cell of a range lies on a sheet if the last one does. -/
theorem onSheet_of_mem {range : CellRange} {c : Coordinate} (hlast : range.last.OnSheet) (h : c ∈ range) :
    c.OnSheet :=
  ⟨Nat.le_trans h.2.1 hlast.1, Nat.le_trans h.2.2.2 hlast.2⟩

/-- A range that is read ends on a sheet. -/
theorem onSheet_of_parseChars {cs : List Char} {range : CellRange} (h : parseChars cs = .ok range) :
    range.last.OnSheet := by
  unfold parseChars at h
  split at h
  · cases h
  split at h
  · cases h
  obtain ⟨first, -, h⟩ := bind_eq_ok_iff.mp h
  obtain ⟨last, hlast, h⟩ := bind_eq_ok_iff.mp h
  unfold of? at h
  split at h
  · next hrange =>
    split at hrange
    · cases h
      cases hrange
      exact Coordinate.onSheet_of_parseChars hlast
    · cases hrange
  · cases h

end CellRange

/-- The address of a cell leads to a place of a sheet. -/
theorem CellAddress.onSheet_of_parse {reference : String} {address : CellAddress}
    (h : CellAddress.parse reference = .ok address) : address.cell.OnSheet := by
  unfold CellAddress.parse at h
  dsimp only at h
  split at h
  · next hcell =>
    cases h
    exact Coordinate.onSheet_of_parseChars hcell
  · cases h

/-- The address of a range leads to a range that ends on a sheet. -/
theorem RangeAddress.onSheet_of_parse {reference : String} {address : RangeAddress}
    (h : RangeAddress.parse reference = .ok address) : address.range.last.OnSheet := by
  unfold RangeAddress.parse at h
  dsimp only at h
  split at h
  · next hrange =>
    cases h
    exact CellRange.onSheet_of_parseChars hrange
  · cases h

end SheetFill
