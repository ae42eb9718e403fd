import SheetFill.Cell.Coordinate
import SheetFill.Text.Cut

/-!
# Ranges of cells

A range is a rectangle, given by its first and its last cell; the first is neither below nor right of the last, and the
type says so. The first cell is also the anchor, the one cell of a merged region that takes content.
-/

namespace SheetFill

/-- A rectangle of cells, both corners included. -/
structure CellRange where
  first : Coordinate
  last : Coordinate
  row_le : first.row ≤ last.row
  col_le : first.col ≤ last.col
deriving DecidableEq

namespace CellRange

@[ext]
theorem ext {a b : CellRange} (hf : a.first = b.first) (hl : a.last = b.last) : a = b := by
  cases a
  cases b
  simp_all

/-- The range between two corners, if they are in order. -/
def of? (first last : Coordinate) : Option CellRange :=
  if h : first.row ≤ last.row ∧ first.col ≤ last.col then some ⟨first, last, h.1, h.2⟩ else none

/-- The characters of a range: its corners with a colon between them. -/
def cornerChars (first last : Coordinate) : List Char :=
  first.chars ++ ':' :: last.chars

/-- The text of a range. -/
def text (r : CellRange) : String :=
  String.ofList (cornerChars r.first r.last)

/-- The range between two corners; corners out of order are a fault. -/
def new (first last : Coordinate) : Except Fault CellRange :=
  match of? first last with
  | some r => .ok r
  | none => .error (.invalidRange (String.ofList (cornerChars first last)))

/-- Reads a range such as A1:D5 given as characters. -/
def parseChars (cs : List Char) : Except Fault CellRange :=
  match Text.cut ':' cs with
  | none => .error (.invalidRange (String.ofList cs))
  | some (before, behind) =>
    if ':' ∈ behind then .error (.invalidRange (String.ofList cs))
    else do
      let first ← Coordinate.parseChars before
      let last ← Coordinate.parseChars behind
      match of? first last with
      | some r => .ok r
      | none => .error (.invalidRange (String.ofList cs))

/-- Reads a range such as A1:D5. -/
def parse (reference : String) : Except Fault CellRange :=
  parseChars reference.toList

/-- How many rows the range has, a number of 32 bits. -/
def rows (r : CellRange) : Nat :=
  wrap32 (r.last.row - r.first.row + 1)

/-- How many columns the range has, a number of 32 bits. -/
def cols (r : CellRange) : Nat :=
  wrap32 (r.last.col - r.first.col + 1)

/-- A coordinate lies in the range. -/
def Mem (r : CellRange) (c : Coordinate) : Prop :=
  r.first.row ≤ c.row ∧ c.row ≤ r.last.row ∧ r.first.col ≤ c.col ∧ c.col ≤ r.last.col

instance : Membership Coordinate CellRange := ⟨Mem⟩

instance (c : Coordinate) (r : CellRange) : Decidable (c ∈ r) :=
  inferInstanceAs (Decidable (_ ∧ _))

/-- The top-left cell. -/
def anchor (r : CellRange) : Coordinate :=
  r.first

/-- The range holds one cell only. -/
def IsSingle (r : CellRange) : Prop :=
  r.first = r.last

instance (r : CellRange) : Decidable r.IsSingle :=
  inferInstanceAs (Decidable (_ = _))

/-- Two ranges have a cell in common. -/
def Overlaps (a b : CellRange) : Prop :=
  a.first.row ≤ b.last.row ∧ b.first.row ≤ a.last.row ∧
    a.first.col ≤ b.last.col ∧ b.first.col ≤ a.last.col

instance (a b : CellRange) : Decidable (a.Overlaps b) :=
  inferInstanceAs (Decidable (_ ∧ _))

/-- The cell of the range that is `r` rows and `c` columns from the anchor. -/
def offset (range : CellRange) (r c : Nat) : Coordinate :=
  ⟨range.first.row + r, range.first.col + c⟩

theorem anchor_mem (r : CellRange) : r.anchor ∈ r :=
  ⟨Nat.le_refl _, r.row_le, Nat.le_refl _, r.col_le⟩

/-- A range of one cell holds no other. -/
theorem IsSingle.eq_of_mem {r : CellRange} (h : r.IsSingle) {c : Coordinate} (hc : c ∈ r) : c = r.anchor := by
  obtain ⟨hrow, hrow', hcol, hcol'⟩ := hc
  rw [← h] at hrow' hcol'
  exact Coordinate.ext (Nat.le_antisymm hrow' hrow) (Nat.le_antisymm hcol' hcol)

/-- Ranges overlap exactly if they have a cell in common. -/
theorem overlaps_iff {a b : CellRange} : a.Overlaps b ↔ ∃ c, c ∈ a ∧ c ∈ b := by
  have ha := a.row_le
  have ha' := a.col_le
  have hb := b.row_le
  have hb' := b.col_le
  constructor
  · intro h
    refine ⟨⟨max a.first.row b.first.row, max a.first.col b.first.col⟩, ?_, ?_⟩
    · change a.Mem _
      simp only [Overlaps, Mem] at h ⊢
      omega
    · change b.Mem _
      simp only [Overlaps, Mem] at h ⊢
      omega
  · rintro ⟨c, hc, hc'⟩
    change a.Mem c at hc
    change b.Mem c at hc'
    simp only [Overlaps, Mem] at *
    omega

end CellRange

end SheetFill
