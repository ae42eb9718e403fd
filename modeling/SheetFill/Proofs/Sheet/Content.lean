import Mathlib.Data.List.Basic
import SheetFill.Proofs.Lists
import SheetFill.Sheet.Workbook

/-!
# Cells are determined by what they show

The entries of a sheet are exactly the coordinates that hold something, and their order is fixed.
Two sheets whose coordinates all have the same content therefore have equal cells, so that an
equation between sheets may be proved coordinate by coordinate. The last row shows in the contents
too: it is the last one that holds something.

A row shift is described the same way, by the content of every coordinate afterwards.
-/

namespace SheetFill

namespace Cells

variable {cells a b : Cells} {c : Coordinate} {v : CellValue}

/-- A coordinate holds something exactly when it has an entry. -/
theorem get?_eq_some_iff : cells.get? c = some v ↔ (c, v) ∈ cells.entries :=
  lookup_eq_some_iff_mem Coordinate.Before.irrefl cells.sorted

/-- An entry is a content that is not empty. -/
theorem mem_entries_iff : (c, v) ∈ cells.entries ↔ cells.content c = v ∧ v ≠ .empty := by
  rw [← get?_eq_some_iff, content]
  constructor
  · intro h
    refine ⟨by rw [h, Option.getD_some], ?_⟩
    rintro rfl
    exact get?_ne_some_empty cells c h
  · rintro ⟨h, hv⟩
    cases hget : cells.get? c with
    | none => exact absurd (by rw [← h, hget, Option.getD_none]) hv
    | some w => rw [← h, hget, Option.getD_some]

/-- Entries in row-major order are pairwise distinct. -/
theorem nodup_of_sorted {entries : List (Coordinate × CellValue)} (h : entries.Pairwise fun a b => a.1.Before b.1) :
    entries.Nodup := by
  refine h.imp fun {x y} hbefore heq => ?_
  subst heq
  exact Coordinate.Before.irrefl _ hbefore

/-- Entries in row-major order are determined by which they are. -/
theorem eq_of_mem_iff {first second : List (Coordinate × CellValue)}
    (hfirst : first.Pairwise fun a b => a.1.Before b.1) (hsecond : second.Pairwise fun a b => a.1.Before b.1)
    (h : ∀ e, e ∈ first ↔ e ∈ second) : first = second := by
  have hperm : first.Perm second :=
    (List.perm_ext_iff_of_nodup (nodup_of_sorted hfirst) (nodup_of_sorted hsecond)).mpr h
  refine hperm.eq_of_pairwise (fun x y _ _ hxy hyx => ?_) hfirst hsecond
  exact absurd (hxy.trans hyx) (Coordinate.Before.irrefl _)

/-- Cells with the same content everywhere are equal. -/
theorem ext_content (h : ∀ c, a.content c = b.content c) : a = b := by
  have hentries : a.entries = b.entries := by
    refine eq_of_mem_iff a.sorted b.sorted ?_
    rintro ⟨c, v⟩
    rw [mem_entries_iff, mem_entries_iff, h c]
  cases a
  cases b
  simpa using hentries

/-- A coordinate has a cell exactly if it holds something. -/
theorem get?_eq_ite (cells : Cells) (c : Coordinate) :
    cells.get? c = if cells.content c = .empty then Option.none else some (cells.content c) := by
  rw [content]
  cases hget : cells.get? c with
  | none => rfl
  | some v =>
    rw [Option.getD_some, if_neg]
    rintro rfl
    exact get?_ne_some_empty cells c hget

/-- The last row holds something, and no row behind it does. -/
theorem of_lastRow?_eq_some {row : Nat} (h : cells.lastRow? = some row) :
    (∃ c, c.row = row ∧ cells.content c ≠ .empty) ∧ ∀ c, cells.content c ≠ .empty → c.row ≤ row := by
  obtain ⟨⟨c, v⟩, hend, rfl⟩ := Option.map_eq_some_iff.mp h
  obtain ⟨front, hentries⟩ := List.getLast?_eq_some_iff.mp hend
  obtain ⟨hcontent, hfilled⟩ := mem_entries_iff.mp (List.mem_of_getLast? hend)
  have hsorted := cells.sorted
  rw [hentries, List.pairwise_append] at hsorted
  refine ⟨⟨c, rfl, by rwa [hcontent]⟩, fun k hk => ?_⟩
  have hmem := mem_entries_iff.mpr ⟨rfl, hk⟩
  rw [hentries, List.mem_append, List.mem_singleton] at hmem
  rcases hmem with hfront | heq
  · have hbefore : k.Before c := hsorted.2.2 _ hfront _ List.mem_cons_self
    simp only [Coordinate.Before] at hbefore ⊢
    omega
  · rw [(Prod.mk.inj heq).1]

/-- There is no last row exactly if nothing holds anything. -/
theorem lastRow?_eq_none_iff : cells.lastRow? = Option.none ↔ ∀ c, cells.content c = .empty := by
  rw [lastRow?, Option.map_eq_none_iff, List.getLast?_eq_none_iff, List.eq_nil_iff_forall_not_mem]
  constructor
  · intro h c
    by_contra hc
    exact h _ (mem_entries_iff.mpr ⟨rfl, hc⟩)
  · rintro h ⟨c, v⟩ hmem
    obtain ⟨rfl, hne⟩ := mem_entries_iff.mp hmem
    exact hne (h c)

/-- The last row is the last one that holds something. -/
theorem lastRow?_eq_some_iff {row : Nat} :
    cells.lastRow? = some row ↔
      (∃ c, c.row = row ∧ cells.content c ≠ .empty) ∧ ∀ c, cells.content c ≠ .empty → c.row ≤ row := by
  refine ⟨of_lastRow?_eq_some, ?_⟩
  rintro ⟨⟨c, rfl, hc⟩, hmax⟩
  cases hfound : cells.lastRow? with
  | none => exact absurd (lastRow?_eq_none_iff.mp hfound c) hc
  | some other =>
    obtain ⟨⟨k, rfl, hk⟩, hbound⟩ := of_lastRow?_eq_some hfound
    rw [Nat.le_antisymm (hmax k hk) (hbound c hc)]

@[simp] theorem shiftDown_zero (cells : Cells) (start : Nat) : cells.shiftDown start 0 = cells := by
  simp [shiftDown]

/-- The entries after a shift are the moved entries that stay on the sheet. -/
theorem mem_entries_shiftDown {start count : Nat} (hcount : count ≠ 0) :
    (c, v) ∈ (cells.shiftDown start count).entries ↔
      ∃ k, (k, v) ∈ cells.entries ∧ (k.row < start ∨ k.row + count ≤ maxRow) ∧
        c = ⟨movedRow start count k.row, k.col⟩ := by
  simp only [shiftDown, if_neg hcount, List.mem_filterMap]
  constructor
  · rintro ⟨⟨k, w⟩, hmem, hmoved⟩
    have heq := movedCell?_eq_some hmoved
    simp only [Prod.mk.injEq] at heq
    obtain ⟨rfl, rfl⟩ := heq
    refine ⟨k, hmem, ?_, rfl⟩
    simp only [movedCell?] at hmoved
    split at hmoved
    · next hrow => exact .inl hrow
    · split at hmoved
      · next hroom => exact .inr hroom
      · cases hmoved
  · rintro ⟨k, hmem, hstays, rfl⟩
    refine ⟨(k, v), hmem, ?_⟩
    simp only [movedCell?, movedRow]
    split
    · rfl
    · next hrow => rw [if_pos (hstays.resolve_left hrow)]

/-- What every coordinate holds after rows were inserted: above them what it held, in them nothing,
and below what the coordinate as many rows higher held, up to the last row. -/
theorem content_shiftDown {start count : Nat} (hcount : count ≠ 0) :
    (cells.shiftDown start count).content c =
      if c.row < start then cells.content c
      else if c.row < start + count ∨ maxRow < c.row then .empty
      else cells.content ⟨c.row - count, c.col⟩ := by
  -- The content is settled by asking which values other than the empty one it can be.
  have hvalue : ∀ x y : CellValue, (∀ v, v ≠ .empty → (x = v ↔ y = v)) → x = y := by
    intro x y h
    by_cases hx : x = .empty
    · by_cases hy : y = .empty
      · rw [hx, hy]
      · exact ((h y hy).mpr rfl)
    · exact ((h x hx).mp rfl).symm
  apply hvalue
  intro v hv
  have hshift : (cells.shiftDown start count).content c = v ↔
      (c, v) ∈ (cells.shiftDown start count).entries := by
    simp [mem_entries_iff, hv]
  rw [hshift, mem_entries_shiftDown hcount]
  constructor
  · rintro ⟨k, hmem, hstays, rfl⟩
    have hk := (mem_entries_iff.mp hmem).1
    by_cases hrow : k.row < start
    · simpa [movedRow, hrow] using hk
    · have hroom := hstays.resolve_left hrow
      have hbelow : ¬ (k.row + count < start) := by omega
      have hband : ¬ (k.row + count < start + count ∨ maxRow < k.row + count) := by omega
      simpa only [movedRow, if_neg hrow, if_neg hbelow, if_neg hband, Nat.add_sub_cancel] using hk
  · intro h
    split at h
    · next hrow =>
      exact ⟨c, mem_entries_iff.mpr ⟨h, hv⟩, .inl hrow, by simp [movedRow, hrow]⟩
    · next hrow =>
      split at h
      · exact absurd h.symm hv
      · next hband =>
        have hroom : c.row - count + count ≤ maxRow := by omega
        have habove : ¬ (c.row - count < start) := by omega
        refine ⟨⟨c.row - count, c.col⟩, mem_entries_iff.mpr ⟨h, hv⟩, .inr hroom, ?_⟩
        ext
        · simp only [movedRow, if_neg habove]
          omega
        · rfl

/-- Cells move with their rows. -/
theorem get?_shiftDown {start count : Nat} (hcount : count ≠ 0) :
    (cells.shiftDown start count).get? c =
      if c.row < start then cells.get? c
      else if c.row < start + count ∨ maxRow < c.row then Option.none
      else cells.get? ⟨c.row - count, c.col⟩ := by
  simp only [get?_eq_ite, content_shiftDown hcount]
  split_ifs <;> first | rfl | contradiction

end Cells

namespace Sheet

/-- Sheets that agree in name, contents and merged regions are equal. -/
theorem ext_content {a b : Sheet} (hname : a.name = b.name) (hmerges : a.merges = b.merges)
    (hcontent : ∀ c, a.content c = b.content c) : a = b := by
  cases a
  cases b
  simp only [Sheet.mk.injEq]
  exact ⟨hname, Cells.ext_content hcontent, hmerges⟩

@[simp] theorem content_set (sheet : Sheet) (c k : Coordinate) (v : CellValue) :
    (sheet.set c v).content k = if k = c then v else sheet.content k :=
  Cells.content_set sheet.cells c k v

@[simp] theorem shiftDown_zero (sheet : Sheet) (start : Nat) : sheet.shiftDown start 0 = sheet := rfl

@[simp] theorem name_shiftDown (sheet : Sheet) (start count : Nat) :
    (sheet.shiftDown start count).name = sheet.name := by
  unfold shiftDown
  split <;> rfl

@[simp] theorem cells_shiftDown (sheet : Sheet) (start count : Nat) :
    (sheet.shiftDown start count).cells = sheet.cells.shiftDown start count := by
  unfold shiftDown
  split
  · next hcount => rw [hcount, Cells.shiftDown_zero]
  · rfl

end Sheet

end SheetFill
