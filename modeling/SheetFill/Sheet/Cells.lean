import SheetFill.Cell.Coordinate
import SheetFill.Sheet.Value

/-!
# The cells of a sheet

Only cells that hold something are kept, in row-major order; the type carries both facts. Setting a cell to nothing
erases it. `Cells.content` is the view through which every operation is described: the content of each coordinate.
-/

namespace SheetFill

/-- The cells of a sheet that hold something, in row-major order. -/
structure Cells where
  entries : List (Coordinate × CellValue)
  sorted : entries.Pairwise fun a b => a.1.Before b.1
  filled : ∀ e ∈ entries, e.2 ≠ .empty

namespace Cells

instance : DecidableEq Cells := fun a b =>
  decidable_of_iff (a.entries = b.entries) (by cases a; cases b; simp)

/-- No cells. -/
def none : Cells := ⟨[], by simp, by simp⟩

instance : Inhabited Cells := ⟨none⟩

/-- Gives a coordinate its content among entries in row-major order. -/
def put (c : Coordinate) (v : CellValue) :
    List (Coordinate × CellValue) → List (Coordinate × CellValue)
  | [] => [(c, v)]
  | e :: rest =>
    if e.1 = c then (c, v) :: rest
    else if c.Before e.1 then (c, v) :: e :: rest
    else e :: put c v rest

/-- Removes a coordinate from entries. -/
def remove (c : Coordinate) (entries : List (Coordinate × CellValue)) :
    List (Coordinate × CellValue) :=
  entries.filter fun e => !decide (e.1 = c)

theorem mem_put {c : Coordinate} {v : CellValue} {entries : List (Coordinate × CellValue)}
    {e : Coordinate × CellValue} (h : e ∈ put c v entries) : e = (c, v) ∨ e ∈ entries := by
  induction entries with
  | nil => simpa [put] using h
  | cons x rest ih =>
    simp only [put] at h
    split at h
    · rcases List.mem_cons.1 h with h | h
      · exact .inl h
      · exact .inr (List.mem_cons_of_mem _ h)
    · split at h
      · rcases List.mem_cons.1 h with h | h
        · exact .inl h
        · exact .inr h
      · rcases List.mem_cons.1 h with h | h
        · exact .inr (h ▸ List.mem_cons_self)
        · exact (ih h).imp id (List.mem_cons_of_mem _)

theorem sorted_put {c : Coordinate} {v : CellValue} {entries : List (Coordinate × CellValue)}
    (h : entries.Pairwise fun a b => a.1.Before b.1) :
    (put c v entries).Pairwise fun a b => a.1.Before b.1 := by
  induction entries with
  | nil => simp [put]
  | cons x rest ih =>
    obtain ⟨hx, hr⟩ := List.pairwise_cons.1 h
    simp only [put]
    split
    · next heq => exact List.pairwise_cons.2 ⟨fun e he => heq ▸ hx e he, hr⟩
    · next hne =>
      split
      · next hb =>
        refine List.pairwise_cons.2 ⟨fun e he => ?_, h⟩
        rcases List.mem_cons.1 he with he | he
        · exact he ▸ hb
        · exact hb.trans (hx e he)
      · next hb =>
        refine List.pairwise_cons.2 ⟨fun e he => ?_, ih hr⟩
        rcases mem_put he with he | he
        · subst he
          rcases Coordinate.Before.trichotomy x.1 c with h | h | h
          · exact h
          · exact absurd h hne
          · exact absurd h hb
        · exact hx e he

theorem lookup_put (c k : Coordinate) (v : CellValue) (entries : List (Coordinate × CellValue)) :
    (put c v entries).lookup k = if k = c then some v else entries.lookup k := by
  induction entries with
  | nil => by_cases h : k = c <;> simp [put, List.lookup_cons, h, beq_false_of_ne]
  | cons e rest ih =>
    obtain ⟨c', v'⟩ := e
    simp only [put]
    split
    · next hc =>
      subst hc
      by_cases h : k = c' <;> simp [List.lookup_cons, h, beq_false_of_ne]
    · next hc =>
      split
      · by_cases h : k = c <;> simp [List.lookup_cons, h, beq_false_of_ne]
      · by_cases h : k = c'
        · subst h
          simp [hc]
        · simp [List.lookup_cons, beq_false_of_ne h, ih]

theorem lookup_remove (c k : Coordinate) (entries : List (Coordinate × CellValue)) :
    (remove c entries).lookup k = if k = c then Option.none else entries.lookup k := by
  induction entries with
  | nil => simp [remove]
  | cons e rest ih =>
    obtain ⟨c', v'⟩ := e
    unfold remove at ih ⊢
    by_cases hc : c' = c
    · subst hc
      rw [List.filter_cons_of_neg (by simp), ih]
      by_cases h : k = c'
      · simp [h]
      · simp [h, List.lookup_cons, beq_false_of_ne h]
    · rw [List.filter_cons_of_pos (by simp [hc])]
      by_cases h : k = c'
      · subst h
        simp [hc]
      · simp [List.lookup_cons, beq_false_of_ne h, ih]

/-- Sets a cell; setting it to nothing erases it. -/
def set (cells : Cells) (c : Coordinate) (v : CellValue) : Cells :=
  if h : v = .empty then
    ⟨remove c cells.entries, cells.sorted.filter _,
      fun e he => cells.filled e (List.mem_filter.1 he).1⟩
  else
    ⟨put c v cells.entries, sorted_put cells.sorted, fun e he => by
      rcases mem_put he with he | he
      · exact he ▸ h
      · exact cells.filled e he⟩

/-- The content of a cell that holds something. -/
def get? (cells : Cells) (c : Coordinate) : Option CellValue :=
  cells.entries.lookup c

/-- The content of a coordinate. -/
def content (cells : Cells) (c : Coordinate) : CellValue :=
  (cells.get? c).getD .empty

/-- The last row that holds a cell. -/
def lastRow? (cells : Cells) : Option Nat :=
  cells.entries.getLast?.map (·.1.row)

/-- Where `count` new rows above row `start` move a row. -/
def movedRow (start count row : Nat) : Nat :=
  if row < start then row else row + count

/-- Where new rows move an entry, unless they push it past the last row. -/
def movedCell? (start count : Nat) (e : Coordinate × CellValue) : Option (Coordinate × CellValue) :=
  if e.1.row < start then some e
  else if e.1.row + count ≤ maxRow then some (⟨e.1.row + count, e.1.col⟩, e.2)
  else Option.none

theorem movedCell?_eq_some {start count : Nat} {e f : Coordinate × CellValue}
    (h : movedCell? start count e = some f) :
    f = (⟨movedRow start count e.1.row, e.1.col⟩, e.2) := by
  unfold movedCell? at h
  split at h
  · next hr =>
    cases h
    simp [movedRow, hr]
  · next hr =>
    split at h
    · cases h
      simp [movedRow, hr]
    · cases h

theorem before_moved {start count : Nat} {a b : Coordinate} (h : a.Before b) :
    Coordinate.Before ⟨movedRow start count a.row, a.col⟩ ⟨movedRow start count b.row, b.col⟩ := by
  simp only [Coordinate.Before, movedRow] at *
  split <;> split <;> omega

/-- Makes room for `count` rows above row `start`: it and the rows below move down, and what would come to stand past the
last row of a sheet is lost. No row at all moves nothing. -/
def shiftDown (cells : Cells) (start count : Nat) : Cells :=
  if count = 0 then cells
  else
    { entries := cells.entries.filterMap (movedCell? start count)
      sorted := by
        rw [List.pairwise_filterMap]
        refine cells.sorted.imp fun hab c hc d hd => ?_
        rw [movedCell?_eq_some hc, movedCell?_eq_some hd]
        exact before_moved hab
      filled := fun e he => by
        obtain ⟨e', he', h⟩ := List.mem_filterMap.1 he
        rw [movedCell?_eq_some h]
        exact cells.filled e' he' }

@[simp] theorem get?_none (c : Coordinate) : none.get? c = Option.none := rfl

theorem get?_ne_some_empty (cells : Cells) (c : Coordinate) : cells.get? c ≠ some .empty := by
  intro h
  obtain ⟨l, r, hl, -⟩ := List.lookup_eq_some_iff.1 h
  exact cells.filled (c, .empty) (by simp [hl]) rfl

theorem get?_set (cells : Cells) (c k : Coordinate) (v : CellValue) :
    (cells.set c v).get? k =
      if k = c then (if v = .empty then Option.none else some v) else cells.get? k := by
  unfold set get?
  split
  · simp [lookup_remove]
  · simp [lookup_put]

@[simp] theorem content_set (cells : Cells) (c k : Coordinate) (v : CellValue) :
    (cells.set c v).content k = if k = c then v else cells.content k := by
  unfold content
  rw [get?_set]
  by_cases h : k = c
  · by_cases hv : v = .empty <;> simp [h, hv]
  · simp [h]

end Cells

end SheetFill
