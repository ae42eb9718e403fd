import Mathlib.Data.List.Nodup
import SheetFill.Package.Basic
import SheetFill.Proofs.Sheet.Content

/-!
# Loading stored sheets

A block says where it starts and how far each cell is away from there; the two add up to the position
that the cell was stored at, as no cell lies above or left of the start. So taking over a block is
taking over the cells at their positions, and a cell that is stored once has its formula in the end,
or its value where it has no formula with a text. Merged regions are taken over in order.
-/

namespace SheetFill.Package

namespace Block

variable {α : Type}

/-- No position lies above or left of the corner of positions. -/
theorem corner_le (c : Coordinate) (positions : List Coordinate) :
    (corner c positions).row ≤ c.row ∧ (corner c positions).col ≤ c.col ∧
      ∀ p ∈ positions, (corner c positions).row ≤ p.row ∧ (corner c positions).col ≤ p.col := by
  induction positions generalizing c with
  | nil => simp [corner]
  | cons p rest ih =>
    obtain ⟨hrow, hcol, hrest⟩ := ih ⟨min c.row p.row, min c.col p.col⟩
    obtain ⟨hrow, hrow'⟩ := Nat.le_min.mp hrow
    obtain ⟨hcol, hcol'⟩ := Nat.le_min.mp hcol
    exact ⟨hrow, hcol, List.forall_mem_cons.mpr ⟨⟨hrow', hcol'⟩, hrest⟩⟩

/-- A distance that was measured from a start leads back from it. -/
theorem position_sub (block : Block α) {c : Coordinate} (hrow : block.start.row ≤ c.row)
    (hcol : block.start.col ≤ c.col) :
    block.position ⟨c.row - block.start.row, c.col - block.start.col⟩ = c := by
  ext
  · exact Nat.add_sub_cancel' hrow
  · exact Nat.add_sub_cancel' hcol

end Block

section Reading

variable {α : Type} {read : Cells → Coordinate → α → Cells} {entries : List (Coordinate × α)}

/-- Taking over a block is taking over the cells at the positions that they were stored at. -/
theorem readBlock_of? (read : Cells → Coordinate → α → Cells) (entries : List (Coordinate × α)) (cells : Cells) :
    readBlock read cells (Block.of? entries) =
      entries.foldl (fun cells entry => read cells entry.1 entry.2) cells := by
  cases entries with
  | nil => rfl
  | cons first rest =>
    obtain ⟨hrow, hcol, hrest⟩ := Block.corner_le first.1 (rest.map Prod.fst)
    rw [Block.of?, readBlock, List.foldl_map]
    refine List.foldl_ext _ _ _ fun cells entry hentry => ?_
    have hle : (Block.corner first.1 (rest.map Prod.fst)).row ≤ entry.1.row ∧
        (Block.corner first.1 (rest.map Prod.fst)).col ≤ entry.1.col := by
      rcases List.mem_cons.mp hentry with rfl | hmem
      · exact ⟨hrow, hcol⟩
      · exact hrest entry.1 (List.mem_map_of_mem hmem)
    rw [Block.position_sub _ hle.1 hle.2]

/-- Taking over something concerns one cell, whose content it makes of what the cell held. -/
def Reads (read : Cells → Coordinate → α → Cells) (update : α → CellValue → CellValue) : Prop :=
  ∀ cells c x k, (read cells c x).content k = if k = c then update x (cells.content c) else cells.content k

variable {update : α → CellValue → CellValue} (hread : Reads read update) {c : Coordinate}

include hread

/-- A cell that no entry is for stays as it was. -/
theorem Reads.content_foldl_of_not_mem (h : ∀ x, (c, x) ∉ entries) (cells : Cells) :
    (entries.foldl (fun cells entry => read cells entry.1 entry.2) cells).content c = cells.content c := by
  induction entries generalizing cells with
  | nil => rfl
  | cons first rest ih =>
    have hne : c ≠ first.1 := fun heq => h first.2 (heq ▸ List.mem_cons_self)
    rw [List.foldl_cons, ih (fun x hx => h x (List.mem_cons_of_mem _ hx)), hread, if_neg hne]

/-- A cell that one entry is for takes that entry over. -/
theorem Reads.content_foldl_of_mem (hnodup : (entries.map Prod.fst).Nodup) {x : α} (h : (c, x) ∈ entries)
    (cells : Cells) :
    (entries.foldl (fun cells entry => read cells entry.1 entry.2) cells).content c =
      update x (cells.content c) := by
  induction entries generalizing cells with
  | nil => cases h
  | cons first rest ih =>
    obtain ⟨hfirst, hrest⟩ := List.nodup_cons.mp hnodup
    rw [List.foldl_cons]
    rcases List.mem_cons.mp h with rfl | hmem
    · have hlater : ∀ y, (c, y) ∉ rest := fun y hy => hfirst (List.mem_map.mpr ⟨(c, y), hy, rfl⟩)
      rw [hread.content_foldl_of_not_mem hlater, hread, if_pos rfl]
    · have hne : c ≠ first.1 := fun heq => hfirst (heq ▸ List.mem_map_of_mem hmem)
      rw [ih hrest hmem, hread, if_neg hne]

end Reading

/-- A value replaces a content, unless it is empty. -/
theorem reads_readValue :
    Reads readValue fun value old => if value.content = .empty then old else value.content := by
  intro cells c value k
  unfold readValue
  cases hvalue : value.content <;> by_cases hk : k = c <;> simp [hk, hvalue]

/-- A formula replaces a content, unless nothing is left of it. -/
theorem reads_readFormula :
    Reads readFormula fun formula old => ((formulaText? formula).map .formula).getD old := by
  intro cells c formula k
  unfold readFormula
  cases hformula : formulaText? formula <;> by_cases hk : k = c <;> simp [hk, hformula]

end Package

/-- The content that a stored cell makes: its formula, or its value without one. -/
def StoredCell.content (cell : StoredCell) : CellValue :=
  ((cell.formula.bind Package.formulaText?).map .formula).getD cell.value.content

namespace Package

section Parts

variable {α : Type} {part? : StoredCell → Option α} {cells : List StoredCell}

/-- The parts of cells are for the positions of the cells that have them. -/
theorem mem_partsOf_iff {c : Coordinate} {x : α} :
    (c, x) ∈ partsOf part? cells ↔ ∃ cell ∈ cells, cell.position = c ∧ part? cell = some x := by
  simp only [partsOf, List.mem_filterMap, Option.map_eq_some_iff, Prod.mk.injEq]
  constructor
  · rintro ⟨cell, hmem, _, hpart, rfl, rfl⟩
    exact ⟨cell, hmem, rfl, hpart⟩
  · rintro ⟨cell, hmem, rfl, hpart⟩
    exact ⟨cell, hmem, x, hpart, rfl, rfl⟩

/-- Cells at different positions have their parts at different positions. -/
theorem nodup_partsOf (hnodup : (cells.map (·.position)).Nodup) (part? : StoredCell → Option α) :
    ((partsOf part? cells).map Prod.fst).Nodup := by
  rw [List.Nodup, List.pairwise_map] at hnodup ⊢
  rw [partsOf, List.pairwise_filterMap]
  refine hnodup.imp fun {cell other} hne e he e' he' => ?_
  obtain ⟨x, -, rfl⟩ := Option.map_eq_some_iff.mp he
  obtain ⟨y, -, rfl⟩ := Option.map_eq_some_iff.mp he'
  exact hne

/-- Of cells at different positions, one has the part at its position. -/
theorem eq_of_mem_partsOf (hnodup : (cells.map (·.position)).Nodup) {cell : StoredCell} (hcell : cell ∈ cells)
    {x : α} (h : (cell.position, x) ∈ partsOf part? cells) : part? cell = some x := by
  obtain ⟨other, hother, hposition, hpart⟩ := mem_partsOf_iff.mp h
  rwa [← List.inj_on_of_nodup_map hnodup hother hcell hposition]

variable {read : Cells → Coordinate → α → Cells} {update : α → CellValue → CellValue}

/-- Taking over a part of cells at different positions makes of each content what its part makes of it. -/
theorem Reads.content_readBlock (hread : Reads read update) (hnodup : (cells.map (·.position)).Nodup)
    {cell : StoredCell} (hcell : cell ∈ cells) (before : Cells) :
    (readBlock read before (Block.of? (partsOf part? cells))).content cell.position =
      ((part? cell).map fun x => update x (before.content cell.position)).getD
        (before.content cell.position) := by
  rw [readBlock_of?]
  cases hpart : part? cell with
  | none =>
    refine hread.content_foldl_of_not_mem (fun x hx => ?_) before
    rw [eq_of_mem_partsOf hnodup hcell hx] at hpart
    cases hpart
  | some x =>
    have hmem := mem_partsOf_iff.mpr ⟨cell, hcell, rfl, hpart⟩
    exact hread.content_foldl_of_mem (nodup_partsOf hnodup part?) hmem before

/-- Taking over a part of cells leaves all other positions as they were. -/
theorem Reads.content_readBlock_of_not_mem (hread : Reads read update) {c : Coordinate}
    (h : ∀ cell ∈ cells, cell.position ≠ c) (before : Cells) :
    (readBlock read before (Block.of? (partsOf part? cells))).content c = before.content c := by
  rw [readBlock_of?]
  refine hread.content_foldl_of_not_mem (fun x hx => ?_) before
  obtain ⟨cell, hcell, hposition, -⟩ := mem_partsOf_iff.mp hx
  exact h cell hcell hposition

end Parts

/-- Regions that differ are merged in order. -/
theorem foldl_merge_of_nodup (regions : List CellRange) (sheet : Sheet)
    (hnodup : (sheet.merges ++ regions).Nodup) :
    regions.foldl Sheet.merge sheet = { sheet with merges := sheet.merges ++ regions } := by
  induction regions generalizing sheet with
  | nil => simp
  | cons region rest ih =>
    have hnew : region ∉ sheet.merges := fun hmem =>
      (List.nodup_append.mp hnodup).2.2 region hmem region List.mem_cons_self rfl
    have hmerge : sheet.merge region = { sheet with merges := sheet.merges ++ [region] } := if_neg hnew
    rw [List.foldl_cons, hmerge, ih _ (by simpa using hnodup)]
    simp

variable {stored : StoredSheet}

/-- A stored sheet keeps its name and its merged regions, if no region stands in it twice. -/
theorem loadSheet_eq (hnodup : stored.merges.Nodup) :
    loadSheet stored =
      { name := stored.name
        cells := readBlock readFormula
          (readBlock readValue .none (Block.of? (partsOf value? stored.cells)))
          (Block.of? (partsOf StoredCell.formula stored.cells))
        merges := stored.merges } :=
  foldl_merge_of_nodup stored.merges _ hnodup

/-- Without a content before, a stored value makes its own. -/
theorem getD_map_value? (cell : StoredCell) :
    ((value? cell).map fun v => if v.content = .empty then CellValue.empty else v.content).getD .empty =
      cell.value.content := by
  unfold value?
  split
  · next hempty => rw [hempty]; rfl
  · rw [Option.map_some, Option.getD_some]
    split
    · next hcontent => exact hcontent.symm
    · rfl

/-- A stored cell makes the content at its position. -/
theorem content_loadSheet_of_mem (hmerges : stored.merges.Nodup)
    (hnodup : (stored.cells.map (·.position)).Nodup) {cell : StoredCell} (hcell : cell ∈ stored.cells) :
    (loadSheet stored).content cell.position = cell.content := by
  rw [loadSheet_eq hmerges, Sheet.content, reads_readFormula.content_readBlock hnodup hcell,
    reads_readValue.content_readBlock hnodup hcell]
  have hnone : Cells.none.content cell.position = .empty := rfl
  simp only [hnone, getD_map_value?, StoredCell.content]
  cases cell.formula <;> rfl

/-- Where no cell is stored there is no content. -/
theorem content_loadSheet_of_not_mem (hmerges : stored.merges.Nodup) {c : Coordinate}
    (h : ∀ cell ∈ stored.cells, cell.position ≠ c) : (loadSheet stored).content c = .empty := by
  rw [loadSheet_eq hmerges, Sheet.content, reads_readFormula.content_readBlock_of_not_mem h,
    reads_readValue.content_readBlock_of_not_mem h]
  rfl

end Package

end SheetFill
