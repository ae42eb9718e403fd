import SheetFill.Proofs.Text.Cut
import SheetFill.Proofs.Text.Trim
import SheetFill.Render.Section

/-!
# Which texts are addresses

A range that can be read has a colon behind its sheet, and so is taken for a range. A cell that can
be read is taken for a cell: it names a sheet, or it is a coordinate by itself. A flat field is
therefore no address, whatever its name.
-/

namespace SheetFill

/-- A reference without an exclamation mark names no sheet. -/
theorem splitSheet_eq_of_not_mem {cs : List Char} (h : '!' ∉ cs) : splitSheet cs = (none, Text.trim cs) := by
  rw [splitSheet, Text.cutLast_eq_none h]

/-- Blanks around a coordinate do not count. -/
theorem Coordinate.parseChars_trim (cs : List Char) : parseChars (Text.trim cs) = parseChars cs := by
  simp only [parseChars, Text.trim_trim]

/-- A text that is read as a range is taken for one. -/
theorem isRangeReference_of_parse {target : String} {address : RangeAddress}
    (h : RangeAddress.parse target = .ok address) : isRangeReference target = true := by
  unfold RangeAddress.parse at h
  unfold isRangeReference
  cases hrange : CellRange.parseChars (splitSheet target.toList).2 with
  | error fault => simp [hrange] at h
  | ok range =>
    cases hcut : Text.cut ':' (splitSheet target.toList).2 with
    | none => simp [CellRange.parseChars, hcut] at hrange
    | some parts => exact decide_eq_true (Text.mem_of_cut_eq_some hcut)

/-- A text that is read as the address of a cell is no flat field. -/
theorem isCellTarget_of_parse {target : String} {address : CellAddress}
    (h : CellAddress.parse target = .ok address) : isCellTarget target = true := by
  unfold isCellTarget
  by_cases hmark : '!' ∈ target.toList
  · simp [hmark]
  · unfold CellAddress.parse at h
    rw [splitSheet_eq_of_not_mem hmark] at h
    cases hcell : Coordinate.parseChars (Text.trim target.toList) with
    | error fault => simp [hcell] at h
    | ok cell =>
      rw [Coordinate.parseChars_trim] at hcell
      simp [Coordinate.parse, hcell, Except.isOk, Except.toBool]

end SheetFill
