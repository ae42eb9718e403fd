import Mathlib.Data.List.Shortlex
import SheetFill.Proofs.Cell.ColumnName
import SheetFill.Proofs.Text.Digits

/-!
# Columns, their names and their keys

The letters in upper case are the digits of a numeral without a zero, and the columns take all such numerals in turn:
first the shorter ones, and among those of one length in the order of the alphabet. This is carried by the last letter,
which is what one step of the naming adds: columns with the same letters in front follow each other by their last
letter, and otherwise the letters in front decide.

Main statement: every column has the one name in upper case that writes its number, the names come in that order, and
letters and keys are read as the columns of a sheet that they write, and as nothing else.
-/

namespace SheetFill.Column

open List (Shortlex)

/-- One to three letters of either case that write the number of a column of a sheet, counted from one. -/
structure NamedBy (col : Nat) (cs : List Char) : Prop where
  ne_nil : cs ≠ []
  length_le : cs.length ≤ 3
  isAlpha_of_mem : ∀ c ∈ cs, c.isAlpha = true
  value_eq : value cs = col + 1
  col_le : col ≤ maxColumn

/-- Digits, perhaps behind zeros, that write the number of a column of a sheet, counted from one. -/
structure NumberedBy (col : Nat) (cs : List Char) : Prop where
  ne_nil : cs ≠ []
  isDigit_of_mem : ∀ c ∈ cs, Text.isDigit c = true
  value_eq : Nat.ofDigits 10 (cs.reverse.map Text.digitValue) = col + 1
  col_le : col ≤ maxColumn

instance (col : Nat) (cs : List Char) : Decidable (NamedBy col cs) :=
  decidable_of_iff
    (cs ≠ [] ∧ cs.length ≤ 3 ∧ cs.all Char.isAlpha = true ∧ value cs = col + 1 ∧ col ≤ maxColumn)
    ⟨fun ⟨hne, hlength, halpha, hvalue, hcol⟩ => ⟨hne, hlength, List.all_eq_true.mp halpha, hvalue, hcol⟩,
      fun h => ⟨h.ne_nil, h.length_le, List.all_eq_true.mpr h.isAlpha_of_mem, h.value_eq, h.col_le⟩⟩

instance (col : Nat) (cs : List Char) : Decidable (NumberedBy col cs) :=
  decidable_of_iff
    (cs ≠ [] ∧ cs.all Text.isDigit = true ∧ Nat.ofDigits 10 (cs.reverse.map Text.digitValue) = col + 1 ∧
      col ≤ maxColumn)
    ⟨fun ⟨hne, hdigit, hvalue, hcol⟩ => ⟨hne, List.all_eq_true.mp hdigit, hvalue, hcol⟩,
      fun h => ⟨h.ne_nil, List.all_eq_true.mpr h.isDigit_of_mem, h.value_eq, h.col_le⟩⟩

variable {cs : List Char} {col : Nat}

/-- A letter in upper case is its own upper case. -/
theorem toUpper_of_isUpper {c : Char} (h : c.isUpper = true) : c.toUpper = c := by
  obtain ⟨n, hn, rfl⟩ := exists_ofNat_eq_of_isAlpha (isAlpha_of_isUpper h)
  revert n
  decide

/-- The name of a column is the one numeral in upper case that writes its number. -/
theorem letters_eq_iff : letters col = cs ↔ cs ≠ [] ∧ (∀ c ∈ cs, c.isUpper = true) ∧ value cs = col + 1 := by
  constructor
  · rintro rfl
    exact ⟨letters_ne_nil col, isUpper_of_mem_letters col, value_letters col⟩
  · rintro ⟨hne, hupper, hvalue⟩
    have hsame : cs.map Char.toUpper = cs :=
      (List.map_congr_left fun c hc => toUpper_of_isUpper (hupper c hc)).trans (List.map_id cs)
    rw [← map_toUpper_eq_letters hne (fun c hc => isAlpha_of_isUpper (hupper c hc)) hvalue, hsame]

/-- Different columns have different names, as they write different numbers. -/
theorem letters_injective : Function.Injective letters := by
  intro i j h
  have hvalue := value_letters i
  rw [h, value_letters j] at hvalue
  omega

section Order

/-- The order of the texts in front decides, whatever one letter follows each of them. -/
theorem shortlex_append_singleton {s t : List Char} (h : Shortlex (· < ·) s t) (a b : Char) :
    Shortlex (· < ·) (s ++ [a]) (t ++ [b]) := by
  rcases List.shortlex_def.mp h with hshorter | ⟨hlength, hlex⟩
  · exact .of_length_lt (by simpa using hshorter)
  · refine .of_lex (by simpa using hlength) ?_
    clear h
    induction hlex with
    | nil => simp at hlength
    | cons _ ih => exact .cons (ih (by simpa using hlength))
    | rel hlt => exact .rel hlt

/-- Letters come in the order of their digits. -/
theorem ofNat_lt_ofNat {n : Nat} (hn : n < 26) {m : Nat} (h : m < n) : Char.ofNat (65 + m) < Char.ofNat (65 + n) := by
  have hall : ∀ n < 26, ∀ m < n, Char.ofNat (65 + m) < Char.ofNat (65 + n) := by decide
  exact hall n hn m h

/-- The names of the first columns are single letters. -/
theorem letters_of_lt (h : col < 26) : letters col = [Char.ofNat (65 + col)] := by
  rw [letters, if_pos h]

/-- Behind them every name is an earlier name with one letter more. -/
theorem letters_of_le (h : 26 ≤ col) : letters col = letters (col / 26 - 1) ++ [Char.ofNat (65 + col % 26)] := by
  rw [letters, if_neg (Nat.not_lt.mpr h)]

/-- A later column has a later name. -/
theorem shortlex_letters_of_lt {i j : Nat} (h : i < j) : Shortlex (· < ·) (letters i) (letters j) := by
  induction j using Nat.strong_induction_on generalizing i with
  | h j ih =>
    rcases Nat.lt_or_ge i 26 with hi | hi
    · rw [letters_of_lt hi]
      rcases Nat.lt_or_ge j 26 with hj | hj
      · rw [letters_of_lt hj]
        exact (List.shortlex_singleton_iff _ _).mpr (ofNat_lt_ofNat hj h)
      · have hfront := List.length_pos_of_ne_nil (letters_ne_nil (j / 26 - 1))
        rw [letters_of_le hj]
        exact .of_length_lt (by simpa using hfront)
    · have hj : 26 ≤ j := Nat.le_trans hi (Nat.le_of_lt h)
      rw [letters_of_le hi, letters_of_le hj]
      by_cases hfront : i / 26 = j / 26
      · have hlast : i % 26 < j % 26 := by omega
        rw [hfront]
        refine Shortlex.append_left ?_ _
        exact (List.shortlex_singleton_iff _ _).mpr (ofNat_lt_ofNat (Nat.mod_lt j (by decide)) hlast)
      · exact shortlex_append_singleton (ih (j / 26 - 1) (by omega) (by omega)) _ _

/-- Names are in the order of their columns. -/
theorem shortlex_letters_iff {i j : Nat} : Shortlex (· < ·) (letters i) (letters j) ↔ i < j := by
  refine ⟨fun h => ?_, shortlex_letters_of_lt⟩
  rcases Nat.lt_trichotomy i j with hlt | heq | hgt
  · exact hlt
  · subst heq
    exact absurd h (asymm h)
  · exact absurd (shortlex_letters_of_lt hgt) (asymm h)

end Order

/-- Letters are read as the column that they name. -/
theorem ofLetters?_eq_some_iff_namedBy : ofLetters? cs = some col ↔ NamedBy col cs := by
  rw [ofLetters?_eq_some_iff]
  exact ⟨fun ⟨hne, hlength, halpha, hvalue, hcol⟩ => ⟨hne, hlength, halpha, hvalue, hcol⟩,
    fun h => ⟨h.ne_nil, h.length_le, h.isAlpha_of_mem, h.value_eq, h.col_le⟩⟩

/-- The name of a column is any letters that name it, in upper case. -/
theorem NamedBy.map_toUpper_eq (h : NamedBy col cs) : cs.map Char.toUpper = letters col :=
  map_toUpper_eq_letters h.ne_nil h.isAlpha_of_mem h.value_eq

/-- No text is both letters and digits. -/
theorem NamedBy.not_all_isDigit (h : NamedBy col cs) : ¬ ∀ c ∈ cs, Text.isDigit c = true := by
  intro hdigit
  obtain ⟨c, hc⟩ := List.exists_mem_of_ne_nil cs h.ne_nil
  obtain ⟨n, hn, rfl⟩ := exists_ofNat_eq_of_isAlpha (h.isAlpha_of_mem c hc)
  have halpha := h.isAlpha_of_mem _ hc
  have hboth := hdigit _ hc
  clear hc
  revert n
  decide

/-- A trimmed key is read as the column that it names or numbers. -/
theorem ofKey?_eq_some_iff : ofKey? cs = some col ↔ NamedBy col cs ∨ NumberedBy col cs := by
  unfold ofKey?
  split
  · next hdigits =>
    obtain ⟨hne, hall⟩ := hdigits
    rw [List.all_eq_true] at hall
    have hnumber : Text.nat? cs = some (Nat.ofDigits 10 (cs.reverse.map Text.digitValue)) :=
      Text.nat?_eq_some_iff.mpr ⟨hne, hall, Text.digitsValue_eq_ofDigits cs⟩
    rw [hnumber, Option.map_eq_some_iff]
    simp only [Option.filter_eq_some_iff, Option.some.injEq, decide_eq_true_eq]
    constructor
    · rintro ⟨n, ⟨rfl, hpos, hmax⟩, hcol⟩
      exact .inr ⟨hne, hall, by omega, by omega⟩
    · rintro (hnamed | hnumbered)
      · exact absurd hall hnamed.not_all_isDigit
      · have hvalue := hnumbered.value_eq
        have hcol := hnumbered.col_le
        exact ⟨col + 1, ⟨hvalue, by omega, by omega⟩, rfl⟩
  · next hother =>
    rw [ofLetters?_eq_some_iff_namedBy]
    refine ⟨.inl, fun h => h.resolve_right fun hnumbered => hother ?_⟩
    exact ⟨hnumbered.ne_nil, List.all_eq_true.mpr hnumbered.isDigit_of_mem⟩

/-- A key is read, without the blanks around it, as the column that it names or numbers. -/
theorem ofKey_eq_ok_iff {key : String} :
    ofKey key = .ok col ↔ NamedBy col (Text.trim key.toList) ∨ NumberedBy col (Text.trim key.toList) := by
  rw [← ofKey?_eq_some_iff, ofKey]
  cases ofKey? (Text.trim key.toList) <;> simp

/-- Every other key is refused, and the fault quotes it without the blanks. -/
theorem ofKey_eq_error_iff {key : String} {fault : Fault} :
    ofKey key = .error fault ↔
      fault = .invalidColumnKey (String.ofList (Text.trim key.toList)) ∧
        ∀ col, ¬ NamedBy col (Text.trim key.toList) ∧ ¬ NumberedBy col (Text.trim key.toList) := by
  simp only [← not_or, ← ofKey?_eq_some_iff, ofKey]
  cases ofKey? (Text.trim key.toList) <;> simp [eq_comm]

/-- The name of a column is the one text of letters in upper case that writes its number to the base twenty-six, counted
from one. Different columns have different names, a shorter name comes first, and of two names of the same length the
one that is first in the alphabet. Letters are read exactly if they name a column of a sheet, and the column's name is
then the letters in upper case. A key is read without the blanks around it, exactly if it names or numbers a column of a
sheet; every other key is refused, and the fault quotes it. -/
theorem names_and_keys :
    (∀ (col : Nat) (s : String), name col = s ↔
      s ≠ "" ∧ (∀ c ∈ s.toList, c.isUpper = true) ∧ value s.toList = col + 1) ∧
    Function.Injective name ∧
    (∀ i j : Nat, Shortlex (· < ·) (name i).toList (name j).toList ↔ i < j) ∧
    (∀ (s : String) (col : Nat), ofLetters? s.toList = some col ↔ NamedBy col s.toList) ∧
    (∀ (s : String) (col : Nat), ofLetters? s.toList = some col → name col = String.ofList (s.toList.map Char.toUpper)) ∧
    (∀ (key : String) (col : Nat), ofKey key = .ok col ↔
      NamedBy col (Text.trim key.toList) ∨ NumberedBy col (Text.trim key.toList)) ∧
    ∀ (key : String) (fault : Fault), ofKey key = .error fault ↔
      fault = .invalidColumnKey (String.ofList (Text.trim key.toList)) ∧
        ∀ col, ¬ NamedBy col (Text.trim key.toList) ∧ ¬ NumberedBy col (Text.trim key.toList) := by
  refine ⟨fun col s => ?_, fun i j h => ?_, fun i j => ?_, fun s col => ofLetters?_eq_some_iff_namedBy,
    fun s col h => ?_, fun key col => ofKey_eq_ok_iff, fun key fault => ofKey_eq_error_iff⟩
  · have hempty : s ≠ "" ↔ s.toList ≠ [] := by simp
    rw [hempty, ← letters_eq_iff, name, ← String.toList_inj, String.toList_ofList]
  · rw [name, name, String.ofList_inj] at h
    exact letters_injective h
  · rw [name, name, String.toList_ofList, String.toList_ofList]
    exact shortlex_letters_iff
  · rw [name, (ofLetters?_eq_some_iff_namedBy.mp h).map_toUpper_eq]

/-- The last column of a sheet by letters of both cases and by a number behind zeros, between blanks; the column behind
it, which has a name but cannot be read; and the step from two letters to three. -/
theorem names_and_keys_last_column :
    name maxColumn = "XFD" ∧ ofLetters? "xFd".toList = some maxColumn ∧ NamedBy maxColumn "xFd".toList ∧
      ofKey " xFd\t" = .ok maxColumn ∧ ofKey " 00016384 " = .ok maxColumn ∧
      name (maxColumn + 1) = "XFE" ∧ ofLetters? "XFE".toList = none ∧
      ofKey "XFE " = .error (.invalidColumnKey "XFE") ∧
      Shortlex (· < ·) (name 701).toList (name 702).toList := by
  obtain ⟨hname, -, horder, hletters, hupper, hkey, -⟩ := names_and_keys
  have hnamed : NamedBy maxColumn "xFd".toList := by decide
  have hread : ofLetters? "xFd".toList = some maxColumn := (hletters _ _).mpr hnamed
  have hlast : name maxColumn = "XFD" := (hupper "xFd" maxColumn hread).trans (by decide)
  exact ⟨hlast, hread, hnamed, (hkey _ _).mpr (.inl (by decide)), (hkey _ _).mpr (.inr (by decide)),
    (hname _ _).mpr ⟨by decide, List.all_eq_true.mp (by decide), by decide⟩, by decide, by decide, (horder 701 702).mpr (by decide)⟩

end SheetFill.Column
