import Mathlib.Data.List.Induction
import Mathlib.Data.Nat.Digits.Defs
import SheetFill.Cell.Column

/-!
# Names of columns as numbers

A letter of either case stands for a digit from one to twenty-six, and letters are a number to the base
twenty-six with these digits. As there is no digit zero, every positive number is written in one way,
apart from the case of the letters: the letters of a column are the number that counts it from one, and
letters with that number are the same in upper case.
-/

namespace SheetFill.Column

/-- The digit that a letter of either case stands for, from one to twenty-six. -/
def rank (c : Char) : Nat :=
  c.toUpper.toNat - 64

/-- The number that letters write to the base twenty-six. -/
def value (cs : List Char) : Nat :=
  Nat.ofDigits 26 (cs.reverse.map rank)

variable {c : Char} {cs : List Char}

/-- Letters are those from A to Z, of either case. -/
theorem isAlpha_iff : c.isAlpha = true ↔ ('A' ≤ c ∧ c ≤ 'Z') ∨ ('a' ≤ c ∧ c ≤ 'z') := by
  change (decide ('A'.val ≤ c.val ∧ c.val ≤ 'Z'.val) || decide ('a'.val ≤ c.val) && decide (c.val ≤ 'z'.val)) = true ↔ _
  simp only [Bool.or_eq_true, Bool.and_eq_true, decide_eq_true_eq]
  rfl

/-- An upper case letter is a letter. -/
theorem isAlpha_of_isUpper (h : c.isUpper = true) : c.isAlpha = true := by
  change (c.isUpper || c.isLower) = true
  rw [h, Bool.true_or]

/-- The letters are among the first characters, so that a fact about them can be tried on each. -/
theorem exists_ofNat_eq_of_isAlpha (h : c.isAlpha = true) : ∃ n < 128, Char.ofNat n = c := by
  refine ⟨c.toNat, ?_, Char.ofNat_toNat c⟩
  simp only [isAlpha_iff, Char.le_def, UInt32.le_iff_toNat_le] at h
  change (65 ≤ c.toNat ∧ c.toNat ≤ 90) ∨ (97 ≤ c.toNat ∧ c.toNat ≤ 122) at h
  omega

/-- A letter stands for a digit from one to twenty-six, and its upper case is the letter with that digit. -/
theorem rank_of_isAlpha (h : c.isAlpha = true) : 1 ≤ rank c ∧ rank c ≤ 26 ∧ c.toUpper = Char.ofNat (64 + rank c) := by
  obtain ⟨n, hn, rfl⟩ := exists_ofNat_eq_of_isAlpha h
  revert n
  decide

/-- The reader takes letters only, with their digits. -/
theorem letterValue?_eq_some_iff {digit : Nat} :
    letterValue? c = some digit ↔ c.isAlpha = true ∧ rank c = digit := by
  by_cases hc : c.isAlpha = true
  · have hread : letterValue? c = some (rank c) := by
      obtain ⟨n, hn, rfl⟩ := exists_ofNat_eq_of_isAlpha hc
      revert n
      decide
    simp [hread, hc]
  · have hnone : letterValue? c = none := by
      rw [isAlpha_iff, not_or] at hc
      rw [letterValue?, if_neg hc.1, if_neg hc.2]
    simp [hnone, hc]

@[simp] theorem value_nil : value [] = 0 := rfl

/-- One more letter is one more digit. -/
theorem value_append_singleton (cs : List Char) (c : Char) : value (cs ++ [c]) = value cs * 26 + rank c := by
  rw [value, List.reverse_append, List.reverse_singleton, List.singleton_append, List.map_cons, Nat.ofDigits_cons]
  change rank c + 26 * value cs = _
  omega

/-- The first letter counts as often as the letters behind it have numbers. -/
theorem value_cons (c : Char) (cs : List Char) : value (c :: cs) = rank c * 26 ^ cs.length + value cs := by
  rw [value, List.reverse_cons, List.map_append, Nat.ofDigits_append, List.map_singleton, Nat.ofDigits_singleton,
    List.length_map, List.length_reverse, Nat.mul_comm, Nat.add_comm]
  rfl

/-- Letters are read as their number, behind what was read before; other characters are not read. -/
theorem lettersValue?_eq_some_iff {before n : Nat} :
    lettersValue? before cs = some n ↔
      (∀ c ∈ cs, c.isAlpha = true) ∧ before * 26 ^ cs.length + value cs = n := by
  induction cs generalizing before with
  | nil => simp [lettersValue?]
  | cons c cs ih =>
    rw [lettersValue?, Option.bind_eq_some_iff]
    simp only [letterValue?_eq_some_iff, ih, List.forall_mem_cons, value_cons, List.length_cons]
    have hvalue : (before * 26 + rank c) * 26 ^ cs.length + value cs =
        before * 26 ^ (cs.length + 1) + (rank c * 26 ^ cs.length + value cs) := by ring
    constructor
    · rintro ⟨_, ⟨hc, rfl⟩, hcs, hn⟩
      exact ⟨⟨hc, hcs⟩, hvalue ▸ hn⟩
    · rintro ⟨⟨hc, hcs⟩, hn⟩
      exact ⟨rank c, ⟨hc, rfl⟩, hcs, hvalue ▸ hn⟩

/-- There is no digit zero, so that no letters write zero. -/
theorem value_pos (hne : cs ≠ []) (hcs : ∀ c ∈ cs, c.isAlpha = true) : 0 < value cs := by
  cases cs with
  | nil => exact absurd rfl hne
  | cons c cs =>
    obtain ⟨hrank, -⟩ := rank_of_isAlpha (hcs c List.mem_cons_self)
    rw [value_cons]
    have hpow : 0 < rank c * 26 ^ cs.length := Nat.mul_pos hrank (Nat.pow_pos (by decide))
    omega

/-- One to three letters name the column that their number counts from one, up to the last column. -/
theorem ofLetters?_eq_some_iff {col : Nat} :
    ofLetters? cs = some col ↔
      cs ≠ [] ∧ cs.length ≤ 3 ∧ (∀ c ∈ cs, c.isAlpha = true) ∧ value cs = col + 1 ∧ col ≤ maxColumn := by
  unfold ofLetters?
  by_cases hshape : cs = [] ∨ 3 < cs.length
  · rw [if_pos hshape]
    simp only [reduceCtorEq, false_iff]
    rintro ⟨hne, hlength, -⟩
    exact hshape.elim hne (Nat.not_lt.mpr hlength)
  · obtain ⟨hne, hlength⟩ := not_or.mp hshape
    rw [if_neg hshape, Option.filter_eq_some_iff, Option.map_eq_some_iff]
    simp only [lettersValue?_eq_some_iff, Nat.zero_mul, Nat.zero_add, decide_eq_true_eq]
    constructor
    · rintro ⟨⟨n, ⟨hcs, rfl⟩, hcol⟩, hmax⟩
      have hpos := value_pos hne hcs
      exact ⟨hne, Nat.le_of_not_lt hlength, hcs, by omega, hmax⟩
    · rintro ⟨-, -, hcs, hvalue, hmax⟩
      exact ⟨⟨value cs, ⟨hcs, rfl⟩, by omega⟩, hmax⟩

section

variable (col : Nat)

/-- The letters of the first twenty-six columns are those in upper case, with their digits. -/
theorem isUpper_ofNat {n : Nat} (h : n < 26) :
    (Char.ofNat (65 + n)).isUpper = true ∧ rank (Char.ofNat (65 + n)) = n + 1 := by
  revert n
  decide

/-- A column has a name. -/
theorem letters_ne_nil : letters col ≠ [] := by
  rw [letters]
  split <;> simp

/-- The name of a column is in upper case. -/
theorem isUpper_of_mem_letters : ∀ c ∈ letters col, c.isUpper = true := by
  fun_induction letters col with
  | case1 col hsmall =>
    intro c hc
    rw [List.mem_singleton.mp hc]
    exact (isUpper_ofNat hsmall).1
  | case2 col hlarge ih =>
    intro c hc
    rcases List.mem_append.mp hc with hmem | hlast
    · exact ih c hmem
    · rw [List.mem_singleton.mp hlast]
      exact (isUpper_ofNat (Nat.mod_lt col (by decide))).1

/-- The name of a column is the number that counts it from one. -/
theorem value_letters : value (letters col) = col + 1 := by
  fun_induction letters col with
  | case1 col hsmall =>
    have hlast := value_append_singleton [] (Char.ofNat (65 + col))
    rw [List.nil_append, value_nil, (isUpper_ofNat hsmall).2] at hlast
    omega
  | case2 col hlarge ih =>
    rw [value_append_singleton, ih, (isUpper_ofNat (Nat.mod_lt col (by decide))).2]
    omega

/-- A name grows by a letter when the columns grow by the factor twenty-six. -/
theorem pow_length_letters_le : 26 ^ (letters col).length ≤ 26 * (col + 1) := by
  fun_induction letters col with
  | case1 col hsmall =>
    rw [List.length_singleton]
    omega
  | case2 col hlarge ih =>
    rw [List.length_append, List.length_singleton, pow_succ]
    omega

end

/-- Letters of either case with the number of a column are its name in upper case. -/
theorem map_toUpper_eq_letters (hne : cs ≠ []) (hcs : ∀ c ∈ cs, c.isAlpha = true) {col : Nat} (h : value cs = col + 1) :
    cs.map Char.toUpper = letters col := by
  induction cs using List.reverseRecOn generalizing col with
  | nil => exact absurd rfl hne
  | append_singleton cs c ih =>
    obtain ⟨hfront, hlast⟩ := List.forall_mem_append.mp hcs
    obtain ⟨hpos, hle, hupper⟩ := rank_of_isAlpha (hlast c List.mem_cons_self)
    rw [value_append_singleton] at h
    rw [List.map_append, List.map_singleton, hupper, letters]
    by_cases hnil : cs = []
    · subst hnil
      rw [value_nil] at h
      rw [if_pos (by omega), show 64 + rank c = 65 + col by omega, List.map_nil, List.nil_append]
    · have hvalue := value_pos hnil hfront
      rw [if_neg (by omega), ih hnil hfront (by omega : value cs = (col / 26 - 1) + 1),
        show 64 + rank c = 65 + col % 26 by omega]

/-- The name of a column of a sheet is read back. -/
theorem ofLetters?_letters {col : Nat} (h : col ≤ maxColumn) : ofLetters? (letters col) = some col := by
  have hlength : (letters col).length ≤ 3 := by
    by_contra hlong
    have hpow : 26 ^ 4 ≤ 26 ^ (letters col).length := Nat.pow_le_pow_right (by decide) (by omega)
    have hle := pow_length_letters_le col
    simp only [maxColumn] at h
    omega
  have halpha : ∀ c ∈ letters col, c.isAlpha = true := fun c hc =>
    isAlpha_of_isUpper (isUpper_of_mem_letters col c hc)
  exact ofLetters?_eq_some_iff.mpr ⟨letters_ne_nil col, hlength, halpha, value_letters col, h⟩

end SheetFill.Column
