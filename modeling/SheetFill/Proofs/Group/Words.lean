import SheetFill.Proofs.Group.RowInsertion
import SheetFill.Proofs.Number.Word

/-!
# Writing a table in words

A table adds the number of each item to the row where it starts, and stops behind the last row of the sheet with the
number of items that are left. `RepeatingGroup.expandAt?` runs this loop in words. Since the loop stops at the first row
that no sheet has, no row number grows beyond that one, however many items there are.

Main statement: the loop in words writes the table.
-/

namespace SheetFill.RepeatingGroup

variable (group : RepeatingGroup) (dialect : Dialect)

/-- The outcome after one more item was written. -/
def afterItem (sheet row : Nat) (item : Tree) (outcome : TableOutcome) : TableOutcome :=
  let (workbook, tally) := group.writeRow dialect sheet row item (outcome.workbook, outcome.tally)
  { workbook := workbook
    rows := outcome.rows + 1
    tally := tally
    warnings := outcome.warnings ++ pathWarnings (group.columns.map Prod.snd) dialect item }

/-- Runs through the items from number `i` on, of `count` in all; behind the last row of the sheet the rest is dropped. -/
def expandItems? (sheet start count : Nat) : Nat → List Tree → TableOutcome → Option TableOutcome
  | _, [], outcome => some outcome
  | i, item :: rest, outcome => do
    let below ← Word.fit? 32 i
    let row ← Word.add? 32 start below
    if maxRow < row then do
      let dropped ← Word.sub? count i
      some { outcome with warnings := outcome.warnings ++ group.droppedWarnings dropped }
    else expandItems? sheet start count (i + 1) rest (group.afterItem dialect sheet row item outcome)

/-- Writes a table that starts at a row of a sheet, in words. -/
def expandAt? (items : List Tree) (sheet row : Nat) (workbook : Workbook) : Option TableOutcome :=
  let count := group.itemCount items.length
  group.expandItems? dialect sheet row count 0 (items.take count) ⟨workbook, 0, .zero, group.columnWarnings⟩

/-- The outcome after items that start at a row: those that have a row are written, the others dropped. -/
def afterItems (sheet row : Nat) (items : List Tree) (outcome : TableOutcome) : TableOutcome :=
  let written := items.take (maxRow + 1 - row)
  let (workbook, tally) := group.writeRows dialect sheet row written (outcome.workbook, outcome.tally)
  { workbook := workbook
    rows := outcome.rows + written.length
    tally := tally
    warnings := outcome.warnings ++ written.flatMap (pathWarnings (group.columns.map Prod.snd) dialect) ++
      group.droppedWarnings (items.length - written.length) }

/-- Behind the last row all items are dropped. -/
theorem afterItems_of_lt (sheet : Nat) {row : Nat} (h : maxRow < row) (items : List Tree) (outcome : TableOutcome) :
    group.afterItems dialect sheet row items outcome =
      { outcome with warnings := outcome.warnings ++ group.droppedWarnings items.length } := by
  have hnone : maxRow + 1 - row = 0 := by omega
  simp [afterItems, hnone, writeRows]

/-- In a row of the sheet the first item is written, and the others start one row below. -/
theorem afterItems_cons (sheet : Nat) {row : Nat} (h : row ≤ maxRow) (item : Tree) (rest : List Tree)
    (outcome : TableOutcome) :
    group.afterItems dialect sheet row (item :: rest) outcome =
      group.afterItems dialect sheet (row + 1) rest (group.afterItem dialect sheet row item outcome) := by
  have hroom : maxRow + 1 - row = maxRow + 1 - (row + 1) + 1 := by omega
  simp only [afterItems, afterItem, hroom, List.take_succ_cons, writeRows, List.length_cons, List.flatMap_cons,
    List.append_assoc, Nat.add_sub_add_right, Nat.add_assoc, Nat.add_comm 1]

/-- The loop writes the items that have a row and drops the others. -/
theorem expandItems?_eq (sheet : Nat) {start i : Nat} (hi : start + i ≤ maxRow + 1) (items : List Tree)
    (outcome : TableOutcome) :
    group.expandItems? dialect sheet start (i + items.length) i items outcome =
      some (group.afterItems dialect sheet (start + i) items outcome) := by
  induction items generalizing i outcome with
  | nil => simp [expandItems?, afterItems, writeRows, droppedWarnings]
  | cons item rest ih =>
    have hrow : start + i < 2 ^ 32 := Nat.lt_of_le_of_lt hi (by decide)
    have hbelow : i < 2 ^ 32 := Nat.lt_of_le_of_lt (Nat.le_add_left _ _) hrow
    simp only [expandItems?, Word.fit?_of_lt hbelow, Word.add?_of_lt hrow, Option.bind_eq_bind, Option.bind_some]
    split
    · next hpast =>
      rw [Word.sub?_of_le (Nat.le_add_right _ _), Nat.add_sub_cancel_left, afterItems_of_lt _ _ _ hpast]
      rfl
    · next hroom =>
      have hlength : i + (item :: rest).length = i + 1 + rest.length := by
        rw [List.length_cons]
        omega
      rw [hlength, ih (by omega), afterItems_cons _ _ _ (Nat.le_of_not_lt hroom), Nat.add_assoc]

/-- In words a table comes to the same outcome, in whatever row of a sheet it starts. -/
theorem expandAt?_eq (items : List Tree) (sheet : Nat) {row : Nat} (hrow : row ≤ maxRow) (workbook : Workbook) :
    group.expandAt? dialect items sheet row workbook = some (group.expandAt dialect items sheet row workbook) := by
  have hcount : (items.take (group.itemCount items.length)).length = group.itemCount items.length :=
    List.length_take_of_le (group.itemCount_le _)
  have hstart : row + 0 ≤ maxRow + 1 := Nat.le_succ_of_le hrow
  have hloop := group.expandItems?_eq dialect sheet hstart (items.take (group.itemCount items.length))
    ⟨workbook, 0, .zero, group.columnWarnings⟩
  rw [Nat.zero_add, hcount] at hloop
  rw [expandAt?, hloop, afterItems, expandAt]
  have hwritten : (items.take (group.itemCount items.length)).take (maxRow + 1 - row) =
      items.take (group.roomFor row items.length) := by
    rw [List.take_take, Nat.min_comm]
    rfl
  simp only [Nat.add_zero, hwritten, hcount, length_take_roomFor, Nat.zero_add]

end SheetFill.RepeatingGroup
