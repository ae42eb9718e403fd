import SheetFill.Fault
import SheetFill.Text.Blank

/-!
# Columns

A column has a number, counted from zero, and a name of letters in bijective base twenty-six: A, B, up to Z, then AA.
Every number has a name; only names of at most three letters, up to XFD, are read.

A table names its columns by letters or by a number counted from one; `Column.ofKey` reads both.
-/

namespace SheetFill

/-- The last column of a sheet, XFD. -/
def maxColumn : Nat := 16383

/-- The last row of a sheet. -/
def maxRow : Nat := 1048575

namespace Column

open Text (isDigit nat?)

/-- The value of a letter of either case, from 1 to 26. -/
def letterValue? (c : Char) : Option Nat :=
  if 'A' ≤ c ∧ c ≤ 'Z' then some (c.toNat - 64)
  else if 'a' ≤ c ∧ c ≤ 'z' then some (c.toNat - 96)
  else none

/-- The bijective base-26 value of letters in front of which `value` was read. -/
def lettersValue? (value : Nat) : List Char → Option Nat
  | [] => some value
  | c :: cs => (letterValue? c).bind fun v => lettersValue? (value * 26 + v) cs

/-- The column that one to three letters name. -/
def ofLetters? (cs : List Char) : Option Nat :=
  if cs = [] ∨ 3 < cs.length then none
  else ((lettersValue? 0 cs).map (· - 1)).filter (· ≤ maxColumn)

/-- The letters that name a column. -/
def letters (column : Nat) : List Char :=
  if column < 26 then [Char.ofNat (65 + column)]
  else letters (column / 26 - 1) ++ [Char.ofNat (65 + column % 26)]
termination_by column
decreasing_by omega

/-- The letters that name a column, as text. -/
def name (column : Nat) : String :=
  String.ofList (letters column)

/-- The column of a trimmed key: a number counted from one, or letters. -/
def ofKey? (cs : List Char) : Option Nat :=
  if cs ≠ [] ∧ cs.all isDigit then
    ((nat? cs).filter fun n => 1 ≤ n ∧ n ≤ maxColumn + 1).map (· - 1)
  else ofLetters? cs

/-- The column that the key of a table names. -/
def ofKey (key : String) : Except Fault Nat :=
  let trimmed := Text.trim key.toList
  match ofKey? trimmed with
  | some column => .ok column
  | none => .error (.invalidColumnKey (String.ofList trimmed))

end Column

end SheetFill
