import SheetFill.Cell.Column

/-!
# Coordinates of cells

A coordinate is a row and a column, both counted from zero. Both are numbers of 32 bits, and sums of them are taken in
32 bits too (`wrap32`). The text of a coordinate is the column's letters and the row counted from one; dollar signs
anywhere and blanks around it are read over.

`Coordinate.Before` is the row-major order, in which the cells of a sheet are kept and listed.
-/

namespace SheetFill

/-- A number in 32 bits: behind the largest one the count starts again at zero. -/
def wrap32 (n : Nat) : Nat :=
  n % 4294967296

theorem wrap32_of_lt {n : Nat} (h : n < 4294967296) : wrap32 n = n :=
  Nat.mod_eq_of_lt h

theorem wrap32_le (n : Nat) : wrap32 n ≤ n :=
  Nat.mod_le _ _

theorem wrap32_lt (n : Nat) : wrap32 n < 4294967296 :=
  Nat.mod_lt _ (by decide)

/-- The position of a cell on its sheet. -/
@[ext]
structure Coordinate where
  row : Nat
  col : Nat
deriving DecidableEq, Inhabited, Repr

namespace Coordinate

open Text (isDigit natUpTo?)

/-- Row-major order: an earlier row, or an earlier column of the same row. -/
def Before (a b : Coordinate) : Prop :=
  a.row < b.row ∨ (a.row = b.row ∧ a.col < b.col)

instance (a b : Coordinate) : Decidable (Before a b) :=
  inferInstanceAs (Decidable (_ ∨ _))

theorem Before.irrefl (a : Coordinate) : ¬ Before a a := by
  simp [Before]

theorem Before.trans {a b c : Coordinate} (h : Before a b) (h' : Before b c) : Before a c := by
  simp only [Before] at *
  omega

theorem Before.trichotomy (a b : Coordinate) : Before a b ∨ a = b ∨ Before b a := by
  simp only [Before, Coordinate.ext_iff]
  omega

/-- The largest row number that is read at all; a larger one is no number here. -/
def maxRowNumber : Nat := 4294967295

/-- Reads letters and a row number without blanks and dollar signs. -/
def read (cs : List Char) : Except CellFault Coordinate :=
  let letters := cs.takeWhile (!isDigit ·)
  let digits := cs.dropWhile (!isDigit ·)
  if digits = [] then .error .missingRow
  else if letters = [] then .error .missingColumn
  else
    match Column.ofLetters? letters with
    | none => .error .badColumn
    | some col =>
      match natUpTo? maxRowNumber digits with
      | none => .error .badRow
      | some 0 => .error .rowOutOfBounds
      | some (row + 1) => if maxRow < row then .error .rowOutOfBounds else .ok ⟨row, col⟩

/-- Reads a reference such as B7 or $B$7 given as characters. -/
def parseChars (cs : List Char) : Except Fault Coordinate :=
  let trimmed := Text.trim cs
  match read (trimmed.filter (· ≠ '$')) with
  | .ok c => .ok c
  | .error cause => .error (.cellReference (String.ofList trimmed) cause)

/-- Reads a reference such as B7 or $B$7. -/
def parse (reference : String) : Except Fault Coordinate :=
  parseChars reference.toList

/-- The characters of a coordinate: letters, then the row counted from one. -/
def chars (c : Coordinate) : List Char :=
  Column.letters c.col ++ Text.ofNat (wrap32 (c.row + 1))

/-- The text of a coordinate. -/
def text (c : Coordinate) : String :=
  String.ofList c.chars

end Coordinate

end SheetFill
