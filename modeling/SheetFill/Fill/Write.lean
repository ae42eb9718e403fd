import SheetFill.Fill.Coerce
import SheetFill.Sheet.Workbook

/-!
# Writing under protection

Every datum reaches a cell through `Workbook.write`, which protects what the template holds, in this order: a cell covered
by a merged region, a formula, and a cell that holds something already unless overwriting is asked for. Only then does
the datum become the content of the cell.

`Workbook.writeAll` writes several data one after the other and counts what was written and what was refused.
-/

namespace SheetFill

/-- What became of one write. -/
inductive WriteOutcome where
  | written
  /-- The cell is covered by a merged region and not its anchor. -/
  | covered
  /-- The cell holds a formula. -/
  | formula
  /-- The cell holds something, and overwriting was not asked for. -/
  | occupied
deriving DecidableEq

/-- How many writes took place and how many were refused. -/
structure Tally where
  written : Nat
  skipped : Nat
deriving DecidableEq, Inhabited

namespace Tally

/-- Nothing counted. -/
def zero : Tally := ⟨0, 0⟩

/-- Counts one write. -/
def count (tally : Tally) : WriteOutcome → Tally
  | .written => { tally with written := tally.written + 1 }
  | _ => { tally with skipped := tally.skipped + 1 }

/-- Two counts together. -/
def add (a b : Tally) : Tally := ⟨a.written + b.written, a.skipped + b.skipped⟩

end Tally

/-- What becomes of a write to a coordinate of a sheet. -/
def Sheet.outcome (sheet : Sheet) (overwrite : Bool) (c : Coordinate) : WriteOutcome :=
  if sheet.Suppressed c then .covered
  else
    match sheet.content c with
    | .empty => .written
    | .formula _ => .formula
    | _ => if overwrite then .written else .occupied

namespace Workbook

/-- What becomes of a write to a coordinate. -/
def outcome (workbook : Workbook) (i : Nat) (overwrite : Bool) (c : Coordinate) : WriteOutcome :=
  (workbook.sheet i).outcome overwrite c

/-- Writes a datum to a cell, unless the cell is protected. -/
def write (workbook : Workbook) (i : Nat) (overwrite : Bool) (c : Coordinate) (datum : Tree) :
    Workbook :=
  if workbook.outcome i overwrite c = .written then workbook.set i c datum.cellValue else workbook

/-- Writes data to cells one after the other, on top of what was counted before. -/
def writeAll (i : Nat) (overwrite : Bool) :
    List (Coordinate × Tree) → Workbook × Tally → Workbook × Tally
  | [], state => state
  | (c, datum) :: rest, (workbook, tally) =>
    writeAll i overwrite rest
      (workbook.write i overwrite c datum, tally.count (workbook.outcome i overwrite c))

end Workbook

end SheetFill
