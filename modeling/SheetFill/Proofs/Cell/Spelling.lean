import SheetFill.Proofs.Cell.Bounds
import SheetFill.Proofs.Cell.ColumnName
import SheetFill.Proofs.Lists
import SheetFill.Proofs.Text.Cut
import SheetFill.Proofs.Text.Digits
import SheetFill.Proofs.Text.Trim

/-!
# References are read exactly

A reference without the blanks around it and without dollar signs spells a coordinate of a sheet: one to
three letters of either case with the number of the column, and digits, perhaps behind zeros, with the
number of the row. The reader takes nothing else, and the text of a coordinate is what its references have
in common: the letters in upper case, and the digits without the zeros in front.

Main statement: a reference is read as the coordinate that it spells, and a range as the coordinates on
both sides of its one colon; and coordinates and ranges of a sheet are read back from their texts.
-/

namespace SheetFill

/-- What a reference says without the blanks around it and without dollar signs. -/
def bareReference (cs : List Char) : List Char :=
  (Text.trim cs).filter (· ≠ '$')

/-- The characters that are signs in a reference. -/
def referenceSigns : List Char :=
  ['$', ':', '!']

/-- No letter is a digit, a blank, or a sign of references. -/
theorem of_isAlpha {x : Char} (h : x.isAlpha = true) :
    Text.isDigit x = false ∧ Text.isBlank x = false ∧ x ∉ referenceSigns := by
  obtain ⟨n, hn, rfl⟩ := Column.exists_ofNat_eq_of_isAlpha h
  revert n
  decide

/-- No digit is a blank, or a sign of references. -/
theorem of_isDigit {x : Char} (h : Text.isDigit x = true) : Text.isBlank x = false ∧ x ∉ referenceSigns := by
  refine ⟨Text.isBlank_of_isDigit h, ?_⟩
  obtain ⟨d, hd, rfl, -⟩ := Text.exists_of_isDigit h
  clear h
  revert d
  decide

namespace Coordinate

/-- The letters write the column's number, and the digits that of the row, both counted from one. -/
structure SpelledBy (c : Coordinate) (letters digits : List Char) : Prop where
  letters_ne_nil : letters ≠ []
  length_letters_le : letters.length ≤ 3
  isAlpha_of_mem : ∀ x ∈ letters, x.isAlpha = true
  value_letters : Column.value letters = c.col + 1
  digits_ne_nil : digits ≠ []
  isDigit_of_mem : ∀ x ∈ digits, Text.isDigit x = true
  value_digits : Nat.ofDigits 10 (digits.reverse.map Text.digitValue) = c.row + 1
  onSheet : c.OnSheet

instance (c : Coordinate) (letters digits : List Char) : Decidable (c.SpelledBy letters digits) :=
  decidable_of_iff
    (letters ≠ [] ∧ letters.length ≤ 3 ∧ letters.all Char.isAlpha = true ∧ Column.value letters = c.col + 1 ∧
      digits ≠ [] ∧ digits.all Text.isDigit = true ∧
      Nat.ofDigits 10 (digits.reverse.map Text.digitValue) = c.row + 1 ∧ c.OnSheet)
    ⟨fun ⟨hletters, hlength, halpha, hcol, hdigits, hdigit, hrow, hsheet⟩ =>
      ⟨hletters, hlength, List.all_eq_true.mp halpha, hcol, hdigits, List.all_eq_true.mp hdigit, hrow, hsheet⟩,
    fun h => ⟨h.letters_ne_nil, h.length_letters_le, List.all_eq_true.mpr h.isAlpha_of_mem, h.value_letters,
      h.digits_ne_nil, List.all_eq_true.mpr h.isDigit_of_mem, h.value_digits, h.onSheet⟩⟩

variable {c : Coordinate} {letters digits cs : List Char}

/-- What is read are letters and digits that spell the coordinate. -/
theorem read_eq_ok_iff : read cs = .ok c ↔ ∃ letters digits, cs = letters ++ digits ∧ c.SpelledBy letters digits := by
  constructor
  · intro h
    refine ⟨_, _, (List.takeWhile_append_dropWhile (p := (!Text.isDigit ·))).symm, ?_⟩
    have hsheet := onSheet_of_read h
    unfold read at h
    dsimp only at h
    split at h
    · cases h
    next hdigits =>
    split at h
    · cases h
    next hletters =>
    split at h
    · cases h
    next col hcol =>
    obtain ⟨-, hlength, halpha, hvalue, -⟩ := Column.ofLetters?_eq_some_iff.mp hcol
    split at h
    · cases h
    · cases h
    next row hrow =>
    obtain ⟨-, hall, hnumber, -⟩ := Text.natUpTo?_eq_some_iff.mp hrow
    rw [Text.digitsValue_eq_ofDigits] at hnumber
    split at h
    · cases h
    · cases h
      exact ⟨hletters, hlength, halpha, hvalue, hdigits, hall, hnumber, hsheet⟩
  · rintro ⟨letters, digits, rfl, h⟩
    have hletters : ∀ x ∈ letters, (!Text.isDigit x) = true := by
      intro x hx
      rw [(of_isAlpha (h.isAlpha_of_mem x hx)).1, Bool.not_false]
    have hdigits : ∀ x ∈ digits.head?, (!Text.isDigit x) = false := by
      intro x hx
      rw [h.isDigit_of_mem x (List.mem_of_mem_head? hx), Bool.not_true]
    have hcol : Column.ofLetters? letters = some c.col :=
      Column.ofLetters?_eq_some_iff.mpr
        ⟨h.letters_ne_nil, h.length_letters_le, h.isAlpha_of_mem, h.value_letters, h.onSheet.2⟩
    have hbound : c.row + 1 ≤ maxRowNumber := Nat.le_trans (Nat.succ_le_succ h.onSheet.1) (by decide)
    have hrow : Text.natUpTo? maxRowNumber digits = some (c.row + 1) :=
      Text.natUpTo?_eq_some_iff.mpr
        ⟨h.digits_ne_nil, h.isDigit_of_mem, (Text.digitsValue_eq_ofDigits digits).trans h.value_digits, hbound⟩
    simp only [read, takeWhile_run hletters hdigits, dropWhile_run hletters hdigits, if_neg h.digits_ne_nil,
      if_neg h.letters_ne_nil, hcol, hrow, if_neg (Nat.not_lt.mpr h.onSheet.1)]

/-- A reference is read as the coordinate that it spells. -/
theorem parseChars_eq_ok_iff :
    parseChars cs = .ok c ↔ ∃ letters digits, bareReference cs = letters ++ digits ∧ c.SpelledBy letters digits := by
  rw [bareReference, ← read_eq_ok_iff, parseChars]
  cases hread : read ((Text.trim cs).filter (· ≠ '$')) <;> simp

/-- The row of a coordinate of a sheet is counted from one within 32 bits. -/
theorem OnSheet.wrap32_row (h : c.OnSheet) : wrap32 (c.row + 1) = c.row + 1 :=
  wrap32_of_lt (Nat.lt_of_le_of_lt (Nat.succ_le_succ h.1) (by decide))

/-- The text of a coordinate has the letters in upper case, and no zeros in front of the digits. -/
theorem SpelledBy.chars_eq (h : c.SpelledBy letters digits) :
    c.chars = letters.map Char.toUpper ++ digits.dropWhile (· = '0') := by
  have hvalue : Text.digitsValue 0 digits = c.row + 1 := (Text.digitsValue_eq_ofDigits digits).trans h.value_digits
  have hdigits : Text.ofNat (c.row + 1) = digits.dropWhile (· = '0') := by
    rw [← hvalue]
    exact Text.ofNat_digitsValue h.isDigit_of_mem (by omega)
  rw [chars, h.onSheet.wrap32_row, hdigits, Column.map_toUpper_eq_letters h.letters_ne_nil h.isAlpha_of_mem h.value_letters]

/-- A coordinate of a sheet is spelled by its own text. -/
theorem OnSheet.spelledBy (h : c.OnSheet) : c.SpelledBy (Column.letters c.col) (Text.ofNat (c.row + 1)) := by
  obtain ⟨hne, hlength, halpha, hvalue, -⟩ := Column.ofLetters?_eq_some_iff.mp (Column.ofLetters?_letters h.2)
  refine ⟨hne, hlength, halpha, hvalue, Text.ofNat_ne_nil _, ?_, ?_, h⟩
  · exact List.all_eq_true.mp (Text.all_isDigit_ofNat _)
  · rw [← Text.digitsValue_eq_ofDigits, Text.digitsValue_ofNat]

/-- The text of a coordinate holds neither blanks nor signs. -/
theorem of_mem_chars {x : Char} (h : x ∈ c.chars) : Text.isBlank x = false ∧ x ∉ referenceSigns := by
  rcases List.mem_append.mp h with hletter | hdigit
  · exact (of_isAlpha (Column.isAlpha_of_isUpper (Column.isUpper_of_mem_letters c.col x hletter))).2
  · exact of_isDigit (List.all_eq_true.mp (Text.all_isDigit_ofNat _) x hdigit)

/-- No sign is in the text of a coordinate. -/
theorem not_mem_chars {sign : Char} (h : sign ∈ referenceSigns) (c : Coordinate) : sign ∉ c.chars :=
  fun hmem => (of_mem_chars hmem).2 h

theorem chars_ne_nil (c : Coordinate) : c.chars ≠ [] :=
  List.append_ne_nil_of_left_ne_nil (Column.letters_ne_nil c.col) _

/-- There are no blanks around the text of a coordinate. -/
theorem trim_chars (c : Coordinate) : Text.trim c.chars = c.chars :=
  Text.trim_eq_self (fun _ hx => (of_mem_chars (List.mem_of_mem_head? hx)).1) fun _ hx =>
    (of_mem_chars (List.mem_of_mem_getLast? hx)).1

/-- A coordinate of a sheet is read back from its text. -/
theorem parseChars_chars (h : c.OnSheet) : parseChars c.chars = .ok c := by
  refine parseChars_eq_ok_iff.mpr ⟨_, _, ?_, h.spelledBy⟩
  rw [bareReference, trim_chars, List.filter_eq_self.mpr]
  · rw [chars, h.wrap32_row]
  · intro x hx
    have hsign : x ≠ '$' := fun heq => not_mem_chars (by decide : '$' ∈ referenceSigns) c (heq ▸ hx)
    simpa using hsign

end Coordinate

namespace CellRange

variable {r : CellRange} {cs : List Char}

/-- Corners in order make the range between them. -/
theorem of?_eq_some_iff {first last : Coordinate} : of? first last = some r ↔ r.first = first ∧ r.last = last := by
  unfold of?
  split
  · next horder =>
    rw [Option.some.injEq]
    constructor
    · rintro rfl
      exact ⟨rfl, rfl⟩
    · rintro ⟨rfl, rfl⟩
      rfl
  · next horder =>
    simp only [reduceCtorEq, false_iff]
    rintro ⟨rfl, rfl⟩
    exact horder ⟨r.row_le, r.col_le⟩

/-- A range is read as the coordinates on both sides of its one colon. -/
theorem parseChars_eq_ok_iff :
    parseChars cs = .ok r ↔
      ∃ before behind, cs = before ++ ':' :: behind ∧ ':' ∉ before ∧ ':' ∉ behind ∧
        Coordinate.parseChars before = .ok r.first ∧ Coordinate.parseChars behind = .ok r.last := by
  constructor
  · intro h
    unfold parseChars at h
    split at h
    · cases h
    · next before behind hcut =>
      obtain ⟨hcs, hbefore⟩ := Text.cut_eq_some_iff.mp hcut
      split at h
      · cases h
      · next hbehind =>
        obtain ⟨first, hfirst, h⟩ := bind_eq_ok_iff.mp h
        obtain ⟨last, hlast, h⟩ := bind_eq_ok_iff.mp h
        split at h
        · next hrange =>
          cases h
          obtain ⟨rfl, rfl⟩ := of?_eq_some_iff.mp hrange
          exact ⟨before, behind, hcs, hbefore, hbehind, hfirst, hlast⟩
        · cases h
  · rintro ⟨before, behind, hcs, hbefore, hbehind, hfirst, hlast⟩
    have hcut := Text.cut_eq_some_iff.mpr ⟨hcs, hbefore⟩
    have hrange : of? r.first r.last = some r := of?_eq_some_iff.mpr ⟨rfl, rfl⟩
    rw [parseChars, hcut]
    dsimp only
    rw [if_neg hbehind, hfirst, hlast]
    simp only [bind, Except.bind, hrange]

/-- A range that ends on a sheet is read back from its text. -/
theorem parseChars_cornerChars (h : r.last.OnSheet) : parseChars (cornerChars r.first r.last) = .ok r := by
  have hfirst : r.first.OnSheet := onSheet_of_mem h r.anchor_mem
  have hsign : ':' ∈ referenceSigns := by decide
  exact parseChars_eq_ok_iff.mpr
    ⟨r.first.chars, r.last.chars, rfl, Coordinate.not_mem_chars hsign _, Coordinate.not_mem_chars hsign _,
      Coordinate.parseChars_chars hfirst, Coordinate.parseChars_chars h⟩

end CellRange

/-- A reference is read exactly if it spells a coordinate of a sheet, and then as that coordinate, whose
text has the letters in upper case and no zeros in front of the digits. A range is read exactly if it has
one colon with a coordinate on both sides, in order, as the range between them. Coordinates and ranges of a
sheet are read back from their texts. -/
theorem references_read_exactly :
    (∀ (s : String) (c : Coordinate), Coordinate.parse s = .ok c ↔
      ∃ letters digits, bareReference s.toList = letters ++ digits ∧ c.SpelledBy letters digits) ∧
    (∀ (c : Coordinate) (letters digits : List Char), c.SpelledBy letters digits →
      c.text = String.ofList (letters.map Char.toUpper ++ digits.dropWhile (· = '0'))) ∧
    (∀ c : Coordinate, c.OnSheet → Coordinate.parse c.text = .ok c) ∧
    (∀ (s : String) (r : CellRange), CellRange.parse s = .ok r ↔
      ∃ first last : String, s = first ++ ":" ++ last ∧ ':' ∉ first.toList ∧ ':' ∉ last.toList ∧
        Coordinate.parse first = .ok r.first ∧ Coordinate.parse last = .ok r.last) ∧
    ∀ r : CellRange, r.last.OnSheet → CellRange.parse r.text = .ok r := by
  refine ⟨fun s c => Coordinate.parseChars_eq_ok_iff, ?_, ?_, ?_, ?_⟩
  · intro c letters digits h
    rw [Coordinate.text, h.chars_eq]
  · intro c h
    rw [Coordinate.parse, Coordinate.text, String.toList_ofList]
    exact Coordinate.parseChars_chars h
  · intro s r
    rw [CellRange.parse, CellRange.parseChars_eq_ok_iff]
    constructor
    · rintro ⟨before, behind, hs, hbefore, hbehind, hfirst, hlast⟩
      refine ⟨String.ofList before, String.ofList behind, ?_, ?_⟩
      · rw [← String.toList_inj, hs]
        simp
      · simp only [Coordinate.parse, String.toList_ofList]
        exact ⟨hbefore, hbehind, hfirst, hlast⟩
    · rintro ⟨first, last, rfl, hbefore, hbehind, hfirst, hlast⟩
      exact ⟨first.toList, last.toList, by simp, hbefore, hbehind, hfirst, hlast⟩
  · intro r h
    rw [CellRange.parse, CellRange.text, String.toList_ofList]
    exact CellRange.parseChars_cornerChars h

/-- The last cell of a sheet with blanks, dollar signs, a letter in lower case and zeros; and the range of
all cells of a sheet. -/
theorem references_read_exactly_last_cell :
    let last : Coordinate := ⟨1048575, 16383⟩
    let all : CellRange := ⟨⟨0, 0⟩, last, by decide, by decide⟩
    Coordinate.parse " $xF$D$001048576\t" = .ok last ∧ last.SpelledBy ['x', 'F', 'D'] "001048576".toList ∧
      last.text = "XFD1048576" ∧ Coordinate.parse "XFD1048576" = .ok last ∧
      CellRange.parse " A1 :$xFd1048576" = .ok all ∧ CellRange.parse all.text = .ok all := by
  intro last all
  have hspelled : last.SpelledBy ['x', 'F', 'D'] "001048576".toList := by decide
  have htext : last.text = "XFD1048576" :=
    (references_read_exactly.2.1 last _ _ hspelled).trans (by decide)
  have hfirst : Coordinate.parse " A1 " = .ok all.first :=
    (references_read_exactly.1 _ _).mpr ⟨['A'], ['1'], by decide, by decide⟩
  have hlast : Coordinate.parse "$xFd1048576" = .ok all.last :=
    (references_read_exactly.1 _ _).mpr ⟨['x', 'F', 'd'], "1048576".toList, by decide, by decide⟩
  refine ⟨(references_read_exactly.1 _ _).mpr ⟨_, _, by decide, hspelled⟩, hspelled, htext, ?_, ?_, ?_⟩
  · rw [← htext]
    exact references_read_exactly.2.2.1 last (by decide)
  · exact (references_read_exactly.2.2.2.1 _ all).mpr
      ⟨" A1 ", "$xFd1048576", by decide, by decide, by decide, hfirst, hlast⟩
  · exact references_read_exactly.2.2.2.2 all (by decide)

end SheetFill
