import Mathlib.Data.List.Perm.Basic
import SheetFill.Proofs.Fill.Range
import SheetFill.Proofs.Fill.Write

/-!
# The order of writes

What becomes of a write is decided by the state of its cell alone, and a write leaves all other cells
as they are. So writes to different cells can be made in any order: they leave the same workbook,
and as many of them are refused. A range gives each of its cells one datum at most, so that the
writes of several ranges and cells without a cell in common can be put in any order as well.
-/

namespace SheetFill

namespace Tally

/-- Which of two writes is counted first does not matter. -/
theorem count_count_comm (tally : Tally) (first second : WriteOutcome) :
    (tally.count first).count second = (tally.count second).count first := by
  cases first <;> cases second <;> rfl

/-- Counting one more write on top of a count. -/
theorem add_count (a b : Tally) (outcome : WriteOutcome) :
    a.add (b.count outcome) = (a.add b).count outcome := by
  cases outcome <;> rfl

end Tally

namespace Sheet

variable (sheet : Sheet) (overwrite : Bool) {c k : Coordinate} (hne : c ≠ k) (datum other : Tree)

include hne

/-- What becomes of a write does not depend on writes to other cells. -/
theorem outcome_write_of_ne : (sheet.write overwrite c datum).outcome overwrite k = sheet.outcome overwrite k := by
  have hcontent : (sheet.write overwrite c datum).content k = sheet.content k := by
    rw [content_write, if_neg fun h => hne h.1.symm]
  simp only [outcome, suppressed_write, hcontent]

/-- Writes to two cells of a sheet commute. -/
theorem write_comm :
    (sheet.write overwrite c datum).write overwrite k other =
      (sheet.write overwrite k other).write overwrite c datum := by
  apply ext_content
  · simp only [name_write]
  · simp only [merges_write]
  · intro cell
    simp only [content_write, suppressed_write]
    by_cases hc : cell = c
    · subst hc
      simp [hne]
    · by_cases hk : cell = k
      · subst hk
        simp [hne.symm]
      · simp [hc, hk]

end Sheet

/-- A datum for a cell of a sheet. -/
structure Placement where
  sheet : Nat
  cell : Coordinate
  datum : Tree

namespace Workbook

/-- Changes of two sheets commute. -/
theorem modify_comm (workbook : Workbook) {i j : Nat} (hne : i ≠ j) (f g : Sheet → Sheet) :
    (workbook.modify i f).modify j g = (workbook.modify j g).modify i f := by
  apply ext_sheet?
  intro n
  simp only [sheet?_modify]
  by_cases hi : i = n
  · subst hi
    simp [hne.symm]
  · simp [hi]

/-- Writes a datum and counts what became of it. -/
def put (overwrite : Bool) (state : Workbook × Tally) (p : Placement) : Workbook × Tally :=
  (state.1.write p.sheet overwrite p.cell p.datum, state.2.count (state.1.outcome p.sheet overwrite p.cell))

/-- Writes data one after the other and counts what became of them. -/
def putAll (overwrite : Bool) (state : Workbook × Tally) (placements : List Placement) : Workbook × Tally :=
  placements.foldl (put overwrite) state

variable {overwrite : Bool}

/-- What becomes of a write does not depend on writes to other cells. -/
theorem outcome_write_of_ne (workbook : Workbook) {p q : Placement} (hne : p.sheet = q.sheet → p.cell ≠ q.cell) :
    (workbook.write p.sheet overwrite p.cell p.datum).outcome q.sheet overwrite q.cell =
      workbook.outcome q.sheet overwrite q.cell := by
  simp only [outcome, sheet, write_eq_modify, sheet?_modify]
  split
  · next hsheet =>
    cases workbook.sheet? q.sheet with
    | none => rfl
    | some sheet => exact sheet.outcome_write_of_ne overwrite (hne hsheet) p.datum
  · rfl

/-- Counted writes to two cells commute. -/
theorem put_comm (state : Workbook × Tally) {p q : Placement} (hne : p.sheet = q.sheet → p.cell ≠ q.cell) :
    put overwrite (put overwrite state p) q = put overwrite (put overwrite state q) p := by
  have hne' : q.sheet = p.sheet → q.cell ≠ p.cell := fun hsheet hcell => hne hsheet.symm hcell.symm
  simp only [put, outcome_write_of_ne _ hne, outcome_write_of_ne _ hne', Prod.mk.injEq]
  refine ⟨?_, state.2.count_count_comm _ _⟩
  simp only [write_eq_modify]
  by_cases hsheet : p.sheet = q.sheet
  · rw [hsheet, modify_modify, modify_modify]
    congr 1
    funext sheet
    exact sheet.write_comm overwrite (hne hsheet) p.datum q.datum
  · exact state.1.modify_comm hsheet _ _

/-- No cell is given two different data. -/
def OneDatumEach (placements : List Placement) : Prop :=
  ∀ p ∈ placements, ∀ q ∈ placements, p.sheet = q.sheet → p.cell = q.cell → p = q

/-- Data for different cells can be written in any order. -/
theorem putAll_perm {first second : List Placement} (hperm : first.Perm second) (hone : OneDatumEach first)
    (state : Workbook × Tally) : putAll overwrite state first = putAll overwrite state second := by
  refine hperm.foldl_eq' (fun p hp q hq state => ?_) state
  by_cases heq : p = q
  · rw [heq]
  · exact put_comm state fun hsheet hcell => heq (hone p hp q hq hsheet hcell)

theorem putAll_append (state : Workbook × Tally) (first second : List Placement) :
    putAll overwrite state (first ++ second) = putAll overwrite (putAll overwrite state first) second :=
  List.foldl_append

/-- Data for one sheet are written as data with that sheet. -/
theorem writeAll_eq_putAll (i : Nat) (data : List (Coordinate × Tree)) (state : Workbook × Tally) :
    writeAll i overwrite data state = putAll overwrite state (data.map fun (c, datum) => ⟨i, c, datum⟩) := by
  induction data generalizing state with
  | nil => rfl
  | cons e rest ih => exact ih _

/-- Writes count on top of what was counted before. -/
theorem putAll_add (overwrite : Bool) (workbook : Workbook) (before tally : Tally) (placements : List Placement) :
    putAll overwrite (workbook, before.add tally) placements =
      ((putAll overwrite (workbook, tally) placements).1,
        before.add (putAll overwrite (workbook, tally) placements).2) := by
  induction placements generalizing workbook tally with
  | nil => rfl
  | cons p rest ih =>
    have hcount := before.add_count tally (workbook.outcome p.sheet overwrite p.cell)
    change putAll overwrite (workbook.write p.sheet overwrite p.cell p.datum, _) rest = _
    rw [← hcount]
    exact ih _ _

end Workbook

namespace CellRange

variable {range : CellRange} {c : Coordinate} {first second : Tree}

/-- Rows give a cell one datum at most. -/
theorem eq_of_mem_assignRows {rows : List Tree} (hfirst : (c, first) ∈ range.assignRows rows)
    (hsecond : (c, second) ∈ range.assignRows rows) : first = second := by
  obtain ⟨_, _, row, hrow, -, hdatum, -, rfl⟩ := mem_assignRows_iff.mp hfirst
  obtain ⟨_, _, other, hother, -, hsame, -, hcell⟩ := mem_assignRows_iff.mp hsecond
  obtain ⟨rfl, rfl⟩ := offset_inj.mp hcell
  obtain rfl := Option.some.inj (hrow.symm.trans hother)
  exact Option.some.inj (hdatum.symm.trans hsame)

/-- A list gives a cell one datum at most. -/
theorem eq_of_mem_assignFlat {items : List Tree} (hfirst : (c, first) ∈ range.assignFlat items)
    (hsecond : (c, second) ∈ range.assignFlat items) : first = second := by
  obtain ⟨i, hdatum, -, rfl⟩ := mem_assignFlat_iff.mp hfirst
  obtain ⟨j, hsame, -, hcell⟩ := mem_assignFlat_iff.mp hsecond
  obtain ⟨hrow, hcol⟩ := offset_inj.mp hcell
  have hplace : i = j := by
    rw [← Nat.div_add_mod i range.cols, ← Nat.div_add_mod j range.cols, hrow, hcol]
  subst hplace
  exact Option.some.inj (hdatum.symm.trans hsame)

/-- A value gives a cell of a range one datum at most. -/
theorem eq_of_mem_assign {value : Tree} (hfirst : (c, first) ∈ range.assign value)
    (hsecond : (c, second) ∈ range.assign value) : first = second := by
  unfold assign at hfirst hsecond
  cases value with
  | list items =>
    dsimp only at hfirst hsecond
    split_ifs at hfirst hsecond
    · exact eq_of_mem_assignRows hfirst hsecond
    · exact eq_of_mem_assignFlat hfirst hsecond
  | null | boolean | number | text | record =>
    cases List.mem_singleton.mp hfirst
    cases List.mem_singleton.mp hsecond
    rfl

end CellRange

end SheetFill
