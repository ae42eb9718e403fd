import Mathlib.Data.List.Pairwise
import Mathlib.Data.List.Perm.Basic
import SheetFill.Proofs.Fill.Write

/-!
# Cells under merged regions

A merged region hides every cell that it holds except its anchor. Whether a cell is suppressed is
decided by one region alone, the first that holds the cell. Where regions do not overlap that is the
only one, and the suppressed cells are the hidden ones. Where they overlap, the anchor of a region can
lie inside a region that was merged later: it is hidden, and yet it is written to.

Main statement: a cell is suppressed exactly if it is hidden and not exposed by an earlier region of
its own; all hidden cells are suppressed in whatever order the regions were merged exactly if no anchor
is hidden; and writes change no hidden cell but the exposed ones.
-/

namespace SheetFill

namespace Sheet

variable {sheet : Sheet} {c : Coordinate}

/-- A merged region holds the cell and is anchored elsewhere. -/
def Hidden (sheet : Sheet) (c : Coordinate) : Prop :=
  ∃ region ∈ sheet.merges, c ∈ region ∧ region.anchor ≠ c

instance (sheet : Sheet) (c : Coordinate) : Decidable (sheet.Hidden c) :=
  inferInstanceAs (Decidable (∃ region ∈ sheet.merges, c ∈ region ∧ region.anchor ≠ c))

/-- The cell is the anchor of a region that was merged before every other region that holds it. -/
def Exposed (sheet : Sheet) (c : Coordinate) : Prop :=
  ∃ before region after, sheet.merges = before ++ region :: after ∧ region.anchor = c ∧
    ∀ earlier ∈ before, c ∉ earlier

/-- The region that decides about a cell is the first that holds it. -/
theorem region?_eq_some_iff {region : CellRange} :
    sheet.region? c = some region ↔
      c ∈ region ∧ ∃ before after, sheet.merges = before ++ region :: after ∧
        ∀ earlier ∈ before, c ∉ earlier := by
  simp [region?, List.find?_eq_some_iff_append]

/-- No region decides about a cell that none holds. -/
theorem region?_eq_none_iff : sheet.region? c = none ↔ ∀ region ∈ sheet.merges, c ∉ region := by
  simp [region?]

/-- A cell is exposed exactly if the region that decides about it is anchored there. -/
theorem exposed_iff : sheet.Exposed c ↔ ∃ region, sheet.region? c = some region ∧ region.anchor = c := by
  constructor
  · rintro ⟨before, region, after, hmerges, rfl, hearlier⟩
    exact ⟨region, region?_eq_some_iff.mpr ⟨region.anchor_mem, before, after, hmerges, hearlier⟩, rfl⟩
  · rintro ⟨region, hregion, hanchor⟩
    obtain ⟨-, before, after, hmerges, hearlier⟩ := region?_eq_some_iff.mp hregion
    exact ⟨before, region, after, hmerges, hanchor, hearlier⟩

/-- The cells that regions suppress are the hidden ones that are not exposed. -/
theorem suppressed_iff : sheet.Suppressed c ↔ sheet.Hidden c ∧ ¬ sheet.Exposed c := by
  rw [exposed_iff]
  constructor
  · rintro ⟨region, hregion, hne⟩
    obtain ⟨hmem, before, after, hmerges, -⟩ := region?_eq_some_iff.mp hregion
    refine ⟨⟨region, by simp [hmerges], hmem, hne⟩, ?_⟩
    rintro ⟨other, hother, hanchor⟩
    rw [hregion] at hother
    cases hother
    exact hne hanchor
  · rintro ⟨⟨region, hregion, hmem, -⟩, hexposed⟩
    cases hfirst : sheet.region? c with
    | none => exact absurd hmem (region?_eq_none_iff.mp hfirst region hregion)
    | some first => exact ⟨first, hfirst, fun hanchor => hexposed ⟨first, hfirst, hanchor⟩⟩

/-- A cell that is hidden and shown at once: it is the anchor of one region and inside another. -/
theorem exists_of_hidden_of_exposed (hhidden : sheet.Hidden c) (hexposed : sheet.Exposed c) :
    ∃ own ∈ sheet.merges, ∃ other ∈ sheet.merges,
      own.anchor = c ∧ c ∈ other ∧ other.anchor ≠ own.anchor := by
  obtain ⟨before, own, after, hmerges, rfl, -⟩ := hexposed
  obtain ⟨other, hother, hmem, hne⟩ := hhidden
  exact ⟨own, by simp [hmerges], other, hother, rfl, hmem, hne⟩

end Sheet

/-- No anchor of a region lies inside a region that is anchored elsewhere. -/
def AnchorsShown (regions : List CellRange) : Prop :=
  ∀ own ∈ regions, ∀ other ∈ regions, own.anchor ∈ other → other.anchor = own.anchor

/-- Regions without a cell in common hide none of their anchors. -/
theorem anchorsShown_of_pairwise {regions : List CellRange}
    (h : regions.Pairwise fun a b => ¬ a.Overlaps b) : AnchorsShown regions := by
  intro own hown other hother hmem
  by_contra hne
  have hsymm : Std.Symm fun a b : CellRange => ¬ a.Overlaps b := by
    refine ⟨fun a b hnot hoverlaps => ?_⟩
    obtain ⟨c, hb, ha⟩ := CellRange.overlaps_iff.mp hoverlaps
    exact hnot (CellRange.overlaps_iff.mpr ⟨c, ha, hb⟩)
  refine h.forall hown hother (fun heq => hne (by rw [heq])) ?_
  exact CellRange.overlaps_iff.mpr ⟨own.anchor, own.anchor_mem, hmem⟩

namespace Sheet

variable {sheet : Sheet} {c : Coordinate}

/-- Where no anchor is hidden, the suppressed cells are the hidden ones. -/
theorem suppressed_iff_hidden (h : AnchorsShown sheet.merges) : sheet.Suppressed c ↔ sheet.Hidden c := by
  rw [suppressed_iff]
  refine and_iff_left_of_imp fun hhidden hexposed => ?_
  obtain ⟨own, hown, other, hother, rfl, hmem, hne⟩ := exists_of_hidden_of_exposed hhidden hexposed
  exact hne (h own hown other hother hmem)

/-- All hidden cells are suppressed, in whatever order the regions were merged, exactly if no anchor is
hidden: a hidden anchor is exposed as soon as its region comes first. -/
theorem suppressed_iff_hidden_in_every_order (sheet : Sheet) :
    (∀ merges : List CellRange, merges.Perm sheet.merges → ∀ c,
        { sheet with merges := merges }.Suppressed c ↔ { sheet with merges := merges }.Hidden c) ↔
      AnchorsShown sheet.merges := by
  constructor
  · intro h own hown other hother hmem
    by_contra hne
    have hperm := List.perm_cons_erase hown
    have hhidden : { sheet with merges := own :: sheet.merges.erase own }.Hidden own.anchor :=
      ⟨other, hperm.subset hother, hmem, hne⟩
    have hsuppressed := (h _ hperm.symm own.anchor).mpr hhidden
    exact (suppressed_iff.mp hsuppressed).2 ⟨[], own, _, rfl, rfl, by simp⟩
  · intro h merges hperm c
    refine suppressed_iff_hidden ?_
    intro own hown other hother
    exact h own (hperm.subset hown) other (hperm.subset hother)

end Sheet

namespace Workbook

variable {workbook : Workbook} {i : Nat} {c : Coordinate}

/-- No write changes a suppressed cell. -/
theorem content_write_of_suppressed (h : (workbook.sheet i).Suppressed c) (j : Nat) (overwrite : Bool)
    (k : Coordinate) (datum : Tree) :
    (workbook.write j overwrite k datum).content i c = workbook.content i c := by
  simp only [content, sheet, write_eq_modify, sheet?_modify] at h ⊢
  split
  · cases hsheet : workbook.sheet? i with
    | none => rfl
    | some sheet =>
      rw [hsheet] at h
      refine (sheet.content_write overwrite k c datum).trans (if_neg ?_)
      rintro ⟨rfl, hfree⟩
      exact hfree h
  · rfl

/-- A cell that is not suppressed takes a datum, unless it holds a formula. -/
theorem content_write_of_not_suppressed (hsheet : i < workbook.sheets.length)
    (h : ¬ (workbook.sheet i).Suppressed c) (hformula : (workbook.content i c).isFormula = false)
    (datum : Tree) : (workbook.write i true c datum).content i c = datum.cellValue := by
  obtain ⟨hfound, -⟩ := sheet?_eq_some_of_lt hsheet
  simp only [content, sheet, write_eq_modify, sheet?_modify, hfound, if_true, Option.map_some,
    Option.getD_some] at h hformula ⊢
  rw [Sheet.content_write, if_pos ⟨rfl, h⟩, CellValue.afterWrite_of_not_formula datum hformula]

/-- A sheet hides a cell only if there is one. -/
theorem lt_of_hidden (h : (workbook.sheet i).Hidden c) : i < workbook.sheets.length := by
  by_contra hnone
  have hsheet : workbook.sheet i = .new "" := by
    rw [sheet, sheet?, List.getElem?_eq_none (Nat.le_of_not_lt hnone), Option.getD_none]
  obtain ⟨region, hregion, -⟩ := h
  rw [hsheet] at hregion
  cases hregion

/-- A cell of a sheet is suppressed exactly if it is hidden and not exposed. Hidden and suppressed are
the same in every order of the regions exactly if no anchor is hidden. No write changes a hidden cell
that is not exposed; one that is exposed is overwritten like any other cell. -/
theorem write_hidden_cell (workbook : Workbook) (i : Nat) :
    (∀ c, (workbook.sheet i).Suppressed c ↔ (workbook.sheet i).Hidden c ∧ ¬ (workbook.sheet i).Exposed c) ∧
    ((∀ merges : List CellRange, merges.Perm (workbook.sheet i).merges → ∀ c,
        { workbook.sheet i with merges := merges }.Suppressed c ↔
          { workbook.sheet i with merges := merges }.Hidden c) ↔
      AnchorsShown (workbook.sheet i).merges) ∧
    ∀ c, (workbook.sheet i).Hidden c →
      (¬ (workbook.sheet i).Exposed c → ∀ j overwrite k datum,
        (workbook.write j overwrite k datum).content i c = workbook.content i c) ∧
      ((workbook.sheet i).Exposed c → (workbook.content i c).isFormula = false → ∀ datum,
        (workbook.write i true c datum).content i c = datum.cellValue) := by
  refine ⟨fun c => Sheet.suppressed_iff, (workbook.sheet i).suppressed_iff_hidden_in_every_order, ?_⟩
  intro c hhidden
  constructor
  · intro hexposed
    exact content_write_of_suppressed (Sheet.suppressed_iff.mpr ⟨hhidden, hexposed⟩)
  · intro hexposed hformula
    refine content_write_of_not_suppressed (lt_of_hidden hhidden) (fun hsuppressed => ?_) hformula
    exact (Sheet.suppressed_iff.mp hsuppressed).2 hexposed

/-- The last cell of one region is the anchor of another that was merged before it: it is hidden, and a
write replaces its content. -/
theorem write_hidden_anchor :
    let first : CellRange := ⟨⟨1, 1⟩, ⟨2, 2⟩, by decide, by decide⟩
    let second : CellRange := ⟨⟨0, 0⟩, ⟨1, 1⟩, by decide, by decide⟩
    let sheet := (((Sheet.new "S").set ⟨1, 1⟩ (.text "old")).merge first).merge second
    let workbook : Workbook := ⟨[sheet]⟩
    second ∈ sheet.merges ∧ (⟨1, 1⟩ : Coordinate) ∈ second ∧ second.anchor ≠ ⟨1, 1⟩ ∧
      ¬ sheet.Suppressed ⟨1, 1⟩ ∧ workbook.content 0 ⟨1, 1⟩ = .text "old" ∧
      (workbook.write 0 true ⟨1, 1⟩ (.text "new")).content 0 ⟨1, 1⟩ = .text "new" := by
  decide +kernel

end Workbook

end SheetFill
